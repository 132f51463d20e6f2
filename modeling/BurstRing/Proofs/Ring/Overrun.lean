import BurstRing.Proofs.Ring.Effects

/-!
# Calls up to an overrun

The consumers' head of a ring at rest is as far behind the producers' as there are records, so as
long as the cursors have not run over (`Ring.Straight`) only an enqueue can get to `2 ^ 64`.  It does
when the elements that have gone in, counted on from where the ring started, are that many.  Up to
then calls are answered alike in all builds, and the call that gets there panics in a build that
checks; it is one or the other (`Ring.Holds.answers_cases`).  So a ring that can take all that its
calls put in is as good as one whose build does not check (`Ring.answers_of_admits`).

An answer depends on the transfer that the call asks for and on nothing else
(`Ring.answer_eq_report`), so this is proved for transfers (`Ring.Holds.transfer_cases`), then for
single calls, and then for calls one after another (`Ring.runWith_cases`).  The endpoints of a split
ring answer as the ring does, in any build (`Endpoints.answer_eq`), so the same holds of them
(`Endpoints.run_cases`).
-/

namespace BurstRing

/-! ### Answers -/

/-- What a call forces of its transfer. -/
def RingCall.transfer : RingCall → Transfer
  | .enqueue _ t | .dequeue _ t | .enqueueElements _ _ t | .dequeueElements _ _ t => t
  | _ => .bulk

/-- What a call that asks for a transfer says about it. -/
def RingCall.report (call : RingCall) (outcome : Except TransferFault Nat)
    (buffer : Array UInt8) : RingAnswer :=
  match call with
  | .enqueue _ _ | .enqueueElements _ _ _ => .stored outcome
  | .dequeue out _ => .handles outcome (Handle.unpack buffer out.size)
  | .dequeueElements _ _ _ => .elements outcome buffer
  | .enqueueOne _ => .accepted (outcome.map (· == 1))
  | .dequeueOne =>
    .handle (outcome.map fun n => if n = 1 then (Handle.unpack buffer 1)[0]? else none)
  | .count | .freeCount | .isFull | .isEmpty => .stored outcome

/-- Elements that went in, as an answer tells. -/
def RingAnswer.entered : RingAnswer → Nat
  | .stored (.ok n) => n
  | .accepted (.ok b) => b.toNat
  | _ => 0

/-- And the answer of an endpoint. -/
def SplitAnswer.entered : SplitAnswer → Nat
  | .ring answer => answer.entered
  | .info _ => 0

/-- What kept such a call from its answer. -/
def SplitAnswer.fault? : SplitAnswer → Option TransferFault
  | .ring answer => answer.fault?
  | .info _ => none

theorem Handle.unpack_pack (handles : Array UInt64) :
    unpack (pack handles) handles.size = handles :=
  @unpack_overwrite [] handles nofun (Nat.zero_le _)

namespace Ring

variable {r : Ring} {q : List (List UInt8)} {call : RingCall} {request : TransferRequest}

/-- A request for handles fetches their bytes. -/
theorem getHandles_eq_unpack (r : Ring) (access : Access) (behavior : Behavior)
    (out : Array UInt64) : r.getHandles access behavior out =
      let done := r.transferBytes access ⟨.consumer, behavior, handleSize, Handle.pack out⟩
      (done.1, Handle.unpack done.2.1 out.size, done.2.2) := by
  simp only [getHandles, transferBytes, checkElements_handles]
  cases checkHandles r.shape out.size with
  | error e => simp only [Except.map, Handle.unpack_pack]
  | ok u => rfl

/-- A call answers what its transfer comes to. -/
theorem answer_eq_report (hrequest : call.request? = some request) (r : Ring) :
    r.answer call =
      let done := r.transferBytes (r.sharedAccess request.side call.transfer) request
      (call.report done.1 done.2.1, done.2.2) := by
  cases call with
  | enqueue handles t =>
      cases hrequest
      simp only [answer, enqueue, putHandles_eq, RingCall.report, RingCall.transfer]
  | dequeue out t =>
      cases hrequest
      simp only [answer, dequeue, getHandles_eq_unpack, RingCall.report, RingCall.transfer]
  | enqueueElements objects elementSize t =>
      cases hrequest
      simp only [answer, enqueueElements, putElements_eq, RingCall.report, RingCall.transfer]
  | dequeueElements out elementSize t =>
      cases hrequest
      rfl
  | enqueueOne handle =>
      cases hrequest
      simp only [answer, enqueueOne, enqueue, putHandles_eq, RingCall.report, RingCall.transfer]
      rfl
  | dequeueOne =>
      cases hrequest
      simp only [answer, dequeueOne, dequeue, getHandles_eq_unpack, RingCall.report,
        RingCall.transfer]
      rfl
  | count | freeCount | isFull | isEmpty => cases hrequest

/-- A query leaves the ring alone, and the build says nothing to it. -/
theorem answer_query (hrequest : call.request? = none) (r : Ring) :
    (r.answer call).2 = r ∧ (r.answer call).1.entered = 0 ∧
      ∀ overflow, (r.inBuild overflow).answer call = ((r.answer call).1, r.inBuild overflow) := by
  cases call with
  | count | freeCount | isFull | isEmpty => exact ⟨rfl, rfl, fun _ => rfl⟩
  | enqueue | dequeue | enqueueElements | dequeueElements | enqueueOne | dequeueOne =>
      cases hrequest

/-! ### One transfer -/

/-- The cursors have not run over since they started from one place. -/
def Straight (r : Ring) : Prop :=
  r.state.consumer.head.toNat ≤ r.state.producer.head.toNat

/-- Elements that go in with a transfer of this outcome. -/
def entering (side : Side) (outcome : Except TransferFault Nat) : Nat :=
  match side with
  | .producer => outcome.toOption.getD 0
  | .consumer => 0

/-- The ring is `r` with `n` more elements gone in, and its cursors have not run over. -/
structure Advances (r : Ring) (n : Nat) (r' : Ring) : Prop where
  head_eq : r'.state.producer.head.toNat = r.state.producer.head.toNat + n
  straight : r'.Straight

theorem Advances.lt {n : Nat} {r' : Ring} (h : r.Advances n r') :
    r.state.producer.head.toNat + n < 2 ^ 64 :=
  h.head_eq ▸ UInt64.toNat_lt _

/-- A transfer is the same in every build, or so many elements go in that it panics in a build that
checks. -/
theorem Holds.transfer_cases (h : r.Holds q) (hstraight : r.Straight) (access : Access)
    (request : TransferRequest) :
    let done := r.transferBytes access request
    let n := entering request.side done.1
    (∀ overflow, (r.inBuild overflow).transferBytes access request =
        (done.1, done.2.1, done.2.2.inBuild overflow)) ∧ r.Advances n done.2.2 ∨
      2 ^ 64 ≤ r.state.producer.head.toNat + n ∧
        ((r.inBuild .checked).transferBytes access request).1 =
          .error (.panicked .subtraction) := by
  obtain ⟨side, behavior, width, buffer⟩ := request
  have hlegible := (h.ready side).legible
  have hcheck : ∀ overflow, checkElements (r.inBuild overflow).shape = checkElements r.shape :=
    fun _ => rfl
  simp only [transferBytes, hcheck]
  cases hwanted : checkElements r.shape buffer.size width with
  | error cause =>
      refine .inl ⟨fun _ => rfl, ?_, hstraight⟩
      cases side <;> rfl
  | ok wanted =>
      dsimp only
      cases side with
      | producer =>
          obtain ⟨k, storage, hperform, hk, -⟩ :=
            perform_store (h.ready .producer) behavior access wanted buffer
          have hreach : r.reach .producer behavior wanted =
              r.state.producer.head.toNat + k.toNat := by
            rw [reach, hk]
            rfl
          rcases Nat.lt_or_ge (r.state.producer.head.toNat + k.toNat) (2 ^ 64) with hlt | hover
          · left
            refine ⟨fun overflow =>
              perform_inBuild overflow hlegible (hreach ▸ hlt) access buffer, ?_⟩
            rw [hperform]
            have hhead : (r.state.producer.head + k).toNat =
                r.state.producer.head.toNat + k.toNat := by
              rw [UInt64.toNat_add, Nat.mod_eq_of_lt hlt]
            exact ⟨hhead, (Nat.le_add_right_of_le hstraight).trans_eq hhead.symm⟩
          · right
            have hover' : 2 ^ 64 ≤ (r.inBuild .checked).reach .producer behavior wanted :=
              hreach ▸ hover
            obtain ⟨claim, hpanics⟩ := perform_overrun rfl (hlegible.inBuild .checked) hover'
            rw [hperform, hpanics]
            exact ⟨hover, rfl⟩
      | consumer =>
          have hsize : wanted.toUInt64.toNat * r.elementSize ≤ buffer.size :=
            (Nat.mul_le_mul_right _ (Nat.mod_le _ _)).trans (checkElements_le hwanted)
          obtain ⟨k, target, hperform, hk, -⟩ :=
            perform_fetch (h.ready .consumer) behavior access wanted buffer hsize
          -- What is fetched lies between the heads.
          have hle : r.state.consumer.head.toNat + k.toNat ≤ r.state.producer.head.toNat := by
            have hshare := behavior.share_le_room wanted.toUInt64.toNat
              (r.state.claimable r.shape .consumer)
            have hused := h.filled
            rw [(h.ready .consumer).claimable_consumer, h.used_eq, ← hused,
              UInt64.toNat_sub_of_le _ _ (UInt64.le_iff_toNat_le.mpr hstraight)] at hshare hk
            have := hstraight
            rw [Straight] at this
            omega
          have hreach : r.reach .consumer behavior wanted < 2 ^ 64 := by
            refine Nat.lt_of_le_of_lt ?_ (UInt64.toNat_lt r.state.producer.head)
            rwa [hk] at hle
          refine .inl ⟨fun overflow => perform_inBuild overflow hlegible hreach access buffer, ?_⟩
          rw [hperform]
          refine ⟨rfl, ?_⟩
          rw [Straight]
          dsimp only
          rwa [UInt64.toNat_add, Nat.mod_eq_of_lt (hle.trans_lt (UInt64.toNat_lt _))]

/-! ### One call -/

theorem fault?_report (call : RingCall) (outcome : Except TransferFault Nat)
    (buffer : Array UInt8) : (call.report outcome buffer).fault? = TransferFault.of? outcome := by
  cases call with
  | enqueueOne | dequeueOne => exact TransferFault.of?_map _ _
  | enqueue | dequeue | enqueueElements | dequeueElements => rfl
  | count | freeCount | isFull | isEmpty => rfl

theorem Holds.entered_report (h : r.Holds q) (hrequest : call.request? = some request)
    (access : Access) :
    let done := r.transferBytes access request
    (call.report done.1 done.2.1).entered = entering request.side done.1 := by
  intro done
  cases call with
  | enqueue | enqueueElements =>
      cases hrequest
      rw [RingCall.report, entering]
      cases done.1 <;> rfl
  | dequeue | dequeueElements | dequeueOne => cases hrequest; rfl
  | enqueueOne handle =>
      cases hrequest
      have hdone : r.Answered _ done.1 done.2.1 done.2.2 :=
        .inl (contained_transferBytes _ (h.ready .producer) access)
      rw [RingCall.report, entering]
      cases houtcome : done.1 with
      | error fault => rfl
      | ok n =>
          have hle := hdone.le_one houtcome
          obtain rfl | rfl : n = 0 ∨ n = 1 := by omega
          · rfl
          · rfl
  | count | freeCount | isFull | isEmpty => cases hrequest

/-- A call is answered alike in every build, or so many elements go in that it panics in a build
that checks. -/
theorem Holds.answer_cases (h : r.Holds q) (hstraight : r.Straight) (call : RingCall) :
    let done := r.answer call
    (∀ overflow, (r.inBuild overflow).answer call = (done.1, done.2.inBuild overflow)) ∧
        r.Advances done.1.entered done.2 ∨
      2 ^ 64 ≤ r.state.producer.head.toNat + done.1.entered ∧
        ((r.inBuild .checked).answer call).1.fault? = some (.panicked .subtraction) := by
  intro done
  cases hrequest : call.request? with
  | none =>
      obtain ⟨hring, hentered, hbuild⟩ := answer_query hrequest r
      left
      rw [hring, hentered]
      exact ⟨hbuild, rfl, hstraight⟩
  | some request =>
      have hentered := h.entered_report hrequest (r.sharedAccess request.side call.transfer)
      have hdone : done = _ := answer_eq_report hrequest r
      rw [hdone]
      dsimp only at hentered ⊢
      rw [hentered]
      refine (h.transfer_cases hstraight (r.sharedAccess request.side call.transfer)
        request).imp ?_ ?_
      · rintro ⟨hbuild, hadvances⟩
        refine ⟨fun overflow => ?_, hadvances⟩
        have hshared : (r.inBuild overflow).sharedAccess = r.sharedAccess := rfl
        rw [answer_eq_report hrequest, hshared, hbuild overflow]
      · rintro ⟨hover, hpanics⟩
        refine ⟨hover, ?_⟩
        have hshared : (r.inBuild .checked).sharedAccess = r.sharedAccess := rfl
        rw [answer_eq_report hrequest, hshared]
        dsimp only
        rw [fault?_report, hpanics]
        rfl

/-! ### Calls one after another -/

section

variable {σ α β : Type}

/-- The answers to calls one after another, and what the calls leave. -/
def runWith (step : σ → α → β × σ) (x : σ) : List α → List β × σ
  | [] => ([], x)
  | call :: calls =>
    let rest := runWith step (step x call).2 calls
    ((step x call).1 :: rest.1, rest.2)

variable (step : σ → α → β × σ) (ring : σ → Ring) (inBuild : Overflow → σ → σ) (entered : β → Nat)
  (panics : β → Prop)

/-- If single calls are answered alike in every build or panic where they get to `2 ^ 64`, then so
are calls one after another, up to the one that gets there. -/
theorem runWith_cases
    (hstep : ∀ {x q}, (ring x).Holds q → (ring x).Straight → ∀ call,
      (∀ overflow, step (inBuild overflow x) call =
          ((step x call).1, inBuild overflow (step x call).2)) ∧
        (ring x).Advances (entered (step x call).1) (ring (step x call).2) ∨
      2 ^ 64 ≤ (ring x).state.producer.head.toNat + entered (step x call).1 ∧
        panics (step (inBuild .checked x) call).1)
    (hrest : ∀ {x q}, (ring x).Holds q → ∀ call, ∃ q', (ring (step x call).2).Holds q')
    (calls : List α) : ∀ {x q}, (ring x).Holds q → (ring x).Straight →
      (∀ overflow, runWith step (inBuild overflow x) calls =
          ((runWith step x calls).1, inBuild overflow (runWith step x calls).2)) ∧
        (ring x).Advances ((runWith step x calls).1.map entered).sum
          (ring (runWith step x calls).2) ∨
      2 ^ 64 ≤ (ring x).state.producer.head.toNat + ((runWith step x calls).1.map entered).sum ∧
        ∃ before call rest, calls = before ++ call :: rest ∧
          (ring x).state.producer.head.toNat + ((runWith step x before).1.map entered).sum < 2 ^ 64 ∧
          (runWith step (inBuild .checked x) before).1 = (runWith step x before).1 ∧
          panics (step (runWith step (inBuild .checked x) before).2 call).1 := by
  induction calls with
  | nil =>
      intro x q _ hstraight
      exact .inl ⟨fun _ => rfl, rfl, hstraight⟩
  | cons call calls ih =>
      intro x q h hstraight
      obtain ⟨q', hq'⟩ := hrest h call
      have hentered : ∀ calls, ((runWith step x (call :: calls)).1.map entered).sum =
          entered (step x call).1 + ((runWith step (step x call).2 calls).1.map entered).sum :=
        fun _ => List.sum_cons
      rcases hstep h hstraight call with ⟨hbuild, hadvances⟩ | ⟨hover, hpanics⟩
      · have hrun : ∀ overflow calls, runWith step (inBuild overflow x) (call :: calls) =
            ((step x call).1 :: (runWith step (inBuild overflow (step x call).2) calls).1,
              (runWith step (inBuild overflow (step x call).2) calls).2) := by
          intro overflow calls
          rw [runWith, hbuild overflow]
        rw [hentered, ← Nat.add_assoc, ← hadvances.head_eq]
        rcases ih hq' hadvances.straight with ⟨hrest, hlast⟩ | ⟨hover, before, next, rest, hsplit,
          hbefore, halike, hpanics⟩
        · refine .inl ⟨fun overflow => ?_, ?_, hlast.straight⟩
          · rw [hrun, hrest overflow]
            rfl
          · exact hlast.head_eq.trans (by rw [hadvances.head_eq, Nat.add_assoc])
        · refine .inr ⟨hover, call :: before, next, rest, congrArg (call :: ·) hsplit, ?_, ?_, ?_⟩
          · rwa [hentered, ← Nat.add_assoc, ← hadvances.head_eq]
          · rw [hrun]
            exact congrArg ((step x call).1 :: ·) halike
          · rwa [hrun]
      · refine .inr ⟨?_, [], call, calls, rfl, UInt64.toNat_lt _, rfl, hpanics⟩
        rw [hentered]
        omega

end

theorem runWith_answer (calls : List RingCall) : ∀ r : Ring,
    runWith answer r calls = (r.answers calls, r.after calls) := by
  induction calls with
  | nil => intro r; rfl
  | cons call calls ih =>
      intro r
      rw [runWith, ih]
      rfl

/-- Elements that go in with these calls in a build that does not check. -/
def entered (r : Ring) (calls : List RingCall) : Nat :=
  (((r.inBuild .wrapping).answers calls).map RingAnswer.entered).sum

/-- Calls are answered alike in every build, or the elements that go in get to `2 ^ 64` with a call
that panics in a build that checks. -/
theorem Holds.answers_cases (calls : List RingCall) (h : r.Holds q) (hstraight : r.Straight) :
    (∀ overflow, (r.inBuild overflow).answers calls = r.answers calls ∧
        (r.inBuild overflow).after calls = (r.after calls).inBuild overflow) ∧
      r.Advances (r.entered calls) (r.after calls) ∨
    2 ^ 64 ≤ r.state.producer.head.toNat + r.entered calls ∧
      ∃ before call rest, calls = before ++ call :: rest ∧
        r.state.producer.head.toNat + r.entered before < 2 ^ 64 ∧
        (r.inBuild .checked).answers before = r.answers before ∧
        (((r.inBuild .checked).after before).answer call).1.fault? =
          some (.panicked .subtraction) := by
  have hcases := runWith_cases answer id inBuild RingAnswer.entered
    (fun answer => answer.fault? = some (.panicked .subtraction)) Holds.answer_cases
    (fun h call => (h.evolves_answer call).holds) calls h hstraight
  simp only [runWith_answer, Prod.mk.injEq, id_eq] at hcases
  simp only [entered, inBuild_of_eq h.unchecked]
  exact hcases

/-- So many more elements can go in without a panic of the build. -/
def Admits (r : Ring) (n : Nat) : Prop :=
  r.shape.overflow = .checked → r.Straight ∧ r.state.producer.head.toNat + n < 2 ^ 64

/-- The calls are answered as where no length runs over, and in a build that checks the cursors have
not run over then. -/
theorem answers_of_admits {calls : List RingCall} (h : (r.inBuild .wrapping).Holds q)
    (hadmits : r.Admits (r.entered calls)) :
    r.answers calls = (r.inBuild .wrapping).answers calls ∧
      r.after calls = ((r.inBuild .wrapping).after calls).inBuild r.shape.overflow ∧
      (r.shape.overflow = .checked → r.Advances (r.entered calls) (r.after calls)) := by
  cases hbuild : r.shape.overflow with
  | wrapping =>
      rw [inBuild_of_eq hbuild] at h ⊢
      obtain ⟨q', hq'⟩ := (h.evolves_after calls).holds
      exact ⟨rfl, (inBuild_of_eq hq'.unchecked).symm, nofun⟩
  | checked =>
      obtain ⟨hstraight, hlt⟩ := hadmits hbuild
      rcases h.answers_cases calls hstraight with ⟨halike, hadvances⟩ | ⟨hover, -⟩
      · obtain ⟨hanswers, hafter⟩ := halike .checked
        rw [inBuild_inBuild, inBuild_of_eq hbuild] at hanswers hafter
        refine ⟨hanswers, hafter, fun _ => ?_⟩
        rw [hafter]
        exact ⟨hadvances.head_eq, hadvances.straight⟩
      · exact absurd hlt (Nat.not_lt.mpr hover)

end Ring

/-! ### Endpoints -/

namespace Endpoints

variable {e : Endpoints} {q : List (List UInt8)}

theorem ext_ring {e e' : Endpoints} (h : e.ring = e'.ring) : e = e' := by
  cases e
  cases e'
  cases h
  rfl

/-- The same endpoints in such a build. -/
def inBuild (overflow : Overflow) (e : Endpoints) : Endpoints :=
  ⟨e.ring.inBuild overflow, e.producer_single, e.consumer_single⟩

theorem inBuild_of_eq {overflow : Overflow} (h : e.ring.shape.overflow = overflow) :
    e.inBuild overflow = e := ext_ring (Ring.inBuild_of_eq h)

theorem inBuild_inBuild (overflow overflow' : Overflow) (e : Endpoints) :
    (e.inBuild overflow').inBuild overflow = e.inBuild overflow := rfl

/-- A call on an endpoint is answered alike in every build, or so many elements go in that it panics
in a build that checks. -/
theorem answer_cases (h : e.ring.Holds q) (hstraight : e.ring.Straight) (call : SplitCall) :
    let done := e.answer call
    (∀ overflow, (e.inBuild overflow).answer call = (done.1, done.2.inBuild overflow)) ∧
        e.ring.Advances done.1.entered done.2.ring ∨
      2 ^ 64 ≤ e.ring.state.producer.head.toNat + done.1.entered ∧
        ((e.inBuild .checked).answer call).1.fault? = some (.panicked .subtraction) := by
  intro done
  obtain ⟨hanswer, hring⟩ := answer_eq h.anyAccess none call
  have hanswer' := fun overflow =>
    answer_eq (e := e.inBuild overflow) (h.anyAccess_inBuild overflow) none call
  rw [hanswer, hring]
  simp only [Ring.answerSplit] at hanswer hring hanswer' ⊢
  cases hshared : call.shared? none with
  | none =>
      simp only [hshared] at hanswer hring hanswer' ⊢
      refine .inl ⟨fun overflow => ?_, rfl, hstraight⟩
      refine Prod.ext ((hanswer' overflow).1.trans rfl) (ext_ring ((hanswer' overflow).2.trans ?_))
      exact congrArg (Ring.inBuild overflow) hring.symm
  | some shared =>
      simp only [hshared] at hanswer hring hanswer' ⊢
      refine (h.answer_cases hstraight shared).imp ?_ ?_
      · rintro ⟨hbuild, hadvances⟩
        refine ⟨fun overflow => Prod.ext ((hanswer' overflow).1.trans ?_)
          (ext_ring ((hanswer' overflow).2.trans ?_)), hadvances⟩
        · exact congrArg (fun answer => SplitAnswer.ring answer.1) (hbuild overflow)
        · have hnext : ((e.inBuild overflow).ring.answer shared).2 =
              (e.ring.answer shared).2.inBuild overflow := congrArg Prod.snd (hbuild overflow)
          rw [hnext, ← hring]
          rfl
      · rintro ⟨hover, hpanics⟩
        refine ⟨hover, ?_⟩
        rw [(hanswer' .checked).1]
        exact hpanics

/-- Elements that go in with these calls in a build that does not check. -/
def entered (e : Endpoints) (calls : List SplitCall) : Nat :=
  (((e.inBuild .wrapping).run calls).1.map SplitAnswer.entered).sum

theorem runWith_answer (calls : List SplitCall) : ∀ e : Endpoints,
    Ring.runWith answer e calls = e.run calls := by
  induction calls with
  | nil => intro e; rfl
  | cons call calls ih =>
      intro e
      rw [Ring.runWith, ih]
      rfl

/-- Calls on endpoints are answered alike in every build, or the elements that go in get to `2 ^ 64`
with a call that panics in a build that checks. -/
theorem run_cases (calls : List SplitCall) (h : e.ring.Holds q) (hstraight : e.ring.Straight) :
    (∀ overflow, (e.inBuild overflow).run calls =
        ((e.run calls).1, (e.run calls).2.inBuild overflow)) ∧
      e.ring.Advances (e.entered calls) (e.run calls).2.ring ∨
    2 ^ 64 ≤ e.ring.state.producer.head.toNat + e.entered calls ∧
      ∃ before call rest, calls = before ++ call :: rest ∧
        e.ring.state.producer.head.toNat + e.entered before < 2 ^ 64 ∧
        ((e.inBuild .checked).run before).1 = (e.run before).1 ∧
        (((e.inBuild .checked).run before).2.answer call).1.fault? =
          some (.panicked .subtraction) := by
  have hrest : ∀ {e : Endpoints} {q : List (List UInt8)}, e.ring.Holds q → ∀ call,
      ∃ q', (e.answer call).2.ring.Holds q' := by
    intro e q h call
    rw [(answer_eq h.anyAccess none call).2]
    exact (h.evolves_answerSplit none call).holds
  have hcases := Ring.runWith_cases answer Endpoints.ring inBuild SplitAnswer.entered
    (fun answer => answer.fault? = some (.panicked .subtraction)) answer_cases hrest calls h
    hstraight
  simp only [runWith_answer] at hcases
  simp only [entered, inBuild_of_eq h.unchecked]
  exact hcases

theorem run_of_admits {calls : List SplitCall} (h : (e.inBuild .wrapping).ring.Holds q)
    (hadmits : e.ring.Admits (e.entered calls)) :
    e.run calls = (((e.inBuild .wrapping).run calls).1,
      ((e.inBuild .wrapping).run calls).2.inBuild e.ring.shape.overflow) := by
  cases hbuild : e.ring.shape.overflow with
  | wrapping =>
      rw [inBuild_of_eq hbuild] at h ⊢
      have hlast : (e.run calls).2.ring.shape.overflow = .wrapping := by
        obtain ⟨q', hq'⟩ := Ring.holds_run calls h
        exact hq'.unchecked
      rw [inBuild_of_eq hlast]
  | checked =>
      obtain ⟨hstraight, hlt⟩ := hadmits hbuild
      rcases run_cases calls h hstraight with ⟨halike, -⟩ | ⟨hover, -⟩
      · have hrun := halike .checked
        rwa [inBuild_inBuild, inBuild_of_eq hbuild] at hrun
      · exact absurd hlt (Nat.not_lt.mpr hover)

end Endpoints

end BurstRing
