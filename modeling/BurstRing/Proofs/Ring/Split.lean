import BurstRing.Proofs.Ring.Contents
import BurstRing.Proofs.Ring.Request
import BurstRing.Ring.Endpoint

/-!
# A split ring goes on as it was

The endpoints of a split ring claim and publish by plain stores, a shared ring by tests and
exchanges.  As long as transfers are made one after another this makes no difference: what a call
that is alone does to a ring at rest does not depend on its access (`Call.runAlone_any`), and every
transfer leaves the ring at rest (`Ring.Evolves`).  So endpoints give the answers of the ring that
was not split, write the same bytes and leave the same cursors and slots, whatever modes its calls
force (`Ring.split_goes_on`).
-/

namespace BurstRing

/-! ### Any access does the same -/

namespace Call

variable {shape : Shape} {s : RingState} {q : List (List UInt8)}

/-- Copying does not look at the access. -/
theorem reaches_copied {claim : Claim} (hfits : ¬ claim.Overruns shape.overflow) (side : Side)
    (m : Nat) :
    ∀ (k : Nat) (s : RingState) (buffer : Array UInt8), k + m = claim.len.toNat →
      ∃ storage target, ∀ c : Call, c.side = side →
        Reaches shape m s { c with buffer := buffer, phase := .copy claim k }
          { s with storage := storage }
          { c with buffer := target, phase := .copy claim claim.len.toNat } := by
  induction m with
  | zero =>
      rintro k s buffer rfl
      exact ⟨s.storage, buffer, fun c _ => .refl s _⟩
  | succ m ih =>
      intro k s buffer hk
      have hlt : k < claim.len.toNat := by omega
      cases side with
      | producer =>
          obtain ⟨storage, target, hrest⟩ :=
            ih (k + 1) { s with storage := s.storage.putElement shape claim buffer k } buffer
              (by omega)
          refine ⟨storage, target, fun c hside => ?_⟩
          rw [Nat.add_comm]
          refine .trans (.one rfl ?_) (hrest c hside)
          simp only [step, Claim.length_of_not_overruns hfits, if_pos hlt, hside]
      | consumer =>
          obtain ⟨storage, target, hrest⟩ :=
            ih (k + 1) s (s.storage.getElement shape claim buffer k) (by omega)
          refine ⟨storage, target, fun c hside => ?_⟩
          rw [Nat.add_comm]
          refine .trans (.one rfl ?_) (hrest c hside)
          simp only [step, Claim.length_of_not_overruns hfits, if_pos hlt, hside]

/-- Alone on a ring at rest, calls that differ in their access only do the same. -/
theorem runAlone_any (h : s.Holds shape q) (side : Side) (behavior : Behavior) (wanted : UInt64)
    (buffer : Array UInt8) :
    ∃ s' target granted, ∀ access,
      let c := begin side behavior access wanted buffer
      c.runAlone shape c.steps s = (s', { c with buffer := target, phase := .done granted }) := by
  have hroom : ∀ access, ((begin side behavior access wanted buffer).room shape s).toNat ≤
      shape.capacity := fun access => (h.ready _).toNat_room.trans_le (h.ready _).claimable_le
  let n := take wanted behavior
    (available shape side (s.cursors side).head (s.cursors side.opposite).tail)
  by_cases hn : n = 0
  · exact ⟨s, buffer, none, fun access =>
      (reaches_nothing rfl (hroom access) hn).runAlone_eq rfl (Nat.le_add_left 2 _)⟩
  · let claim : Claim := ⟨(s.cursors side).head, (s.cursors side).head + n⟩
    have hlen : claim.len = n := Claim.len_mk _ _
    have hle : n.toNat ≤ wanted.toNat := by
      rw [toNat_take]
      exact behavior.share_le_wanted _ _
    have hfits := claim.not_overruns_of_wrapping h.unchecked
    obtain ⟨storage, target, hcopied⟩ := reaches_copied hfits side n.toNat 0
      (s.setCursors side ((s.cursors side).reserve claim)) buffer (by rw [hlen, Nat.zero_add])
    let s₂ : RingState :=
      { s.setCursors side ((s.cursors side).reserve claim) with storage := storage }
    have htail : (s₂.cursors side).tail = claim.start := by
      cases side with
      | producer => exact h.producer_rest
      | consumer => exact h.consumer_rest
    refine ⟨s₂.setCursors side ((s₂.cursors side).release claim), target, some claim,
      fun access => ?_⟩
    obtain ⟨m, hm, hdone⟩ := reaches_done s₂
      { begin side behavior access wanted buffer with
        buffer := target, phase := .copy claim claim.len.toNat } hfits rfl (Nat.le_refl _) htail
    have hsteps : 3 + (n.toNat + m) ≤ wanted.toNat + 6 := by omega
    exact ((reaches_copy rfl (hroom access) hn).trans
      ((hcopied _ rfl).trans hdone)).runAlone_eq rfl hsteps

end Call

namespace Ring

variable {r : Ring} {q : List (List UInt8)}

/-- The access makes no difference to a transfer. -/
def AnyAccess (r : Ring) : Prop :=
  ∀ (a b : Access) (side : Side) (behavior : Behavior) (wanted : Nat) (buffer : Array UInt8),
    r.perform side behavior a wanted buffer = r.perform side behavior b wanted buffer

theorem Holds.anyAccess (h : r.Holds q) : r.AnyAccess := by
  intro a b side behavior wanted buffer
  obtain ⟨s', target, granted, hrun⟩ :=
    Call.runAlone_any h side behavior wanted.toUInt64 buffer
  obtain ⟨name, shape, producer, consumer, state⟩ := r
  have ha := hrun a
  have hb := hrun b
  rw [perform, perform]
  dsimp only at ha hb ⊢
  rw [ha, hb]

namespace AnyAccess

theorem putElements (h : r.AnyAccess) (a b : Access) (behavior : Behavior)
    (objects : Array UInt8) (elementSize : Nat) :
    r.putElements a behavior objects elementSize =
      r.putElements b behavior objects elementSize := by
  simp only [Ring.putElements, h a b]

theorem getElements (h : r.AnyAccess) (a b : Access) (behavior : Behavior)
    (out : Array UInt8) (elementSize : Nat) :
    r.getElements a behavior out elementSize = r.getElements b behavior out elementSize := by
  simp only [Ring.getElements, h a b]

theorem putHandles (h : r.AnyAccess) (a b : Access) (behavior : Behavior)
    (handles : Array UInt64) :
    r.putHandles a behavior handles = r.putHandles b behavior handles := by
  simp only [Ring.putHandles, h a b]

theorem getHandles (h : r.AnyAccess) (a b : Access) (behavior : Behavior)
    (out : Array UInt64) : r.getHandles a behavior out = r.getHandles b behavior out := by
  simp only [Ring.getHandles, h a b]

end AnyAccess

/-! ### Every transfer leaves the ring at rest -/

/-- The ring is `r` after a while, at rest. -/
def Evolves (r r' : Ring) : Prop :=
  ∃ state q, r' = { r with state } ∧ RingState.Holds r.shape state q

theorem Evolves.refl (h : r.Holds q) : r.Evolves r := ⟨r.state, q, rfl, h⟩

theorem Evolves.trans {r' r'' : Ring} (h : r.Evolves r') (h' : r'.Evolves r'') :
    r.Evolves r'' := by
  obtain ⟨state, q, rfl, -⟩ := h
  obtain ⟨state', q', rfl, hholds⟩ := h'
  exact ⟨state', q', rfl, hholds⟩

theorem Evolves.holds {r' : Ring} (h : r.Evolves r') : ∃ q, r'.Holds q := by
  obtain ⟨state, q, rfl, hholds⟩ := h
  exact ⟨q, hholds⟩

theorem perform_ring (r : Ring) (side : Side) (behavior : Behavior) (access : Access)
    (wanted : Nat) (buffer : Array UInt8) :
    ∃ state, (r.perform side behavior access wanted buffer).2.2 = { r with state } := by
  unfold perform
  split
  dsimp only
  split <;> exact ⟨_, rfl⟩

/-- What is asked for is asked for as a word. -/
theorem perform_toUInt64 (r : Ring) (side : Side) (behavior : Behavior) (access : Access)
    (wanted : Nat) (buffer : Array UInt8) :
    r.perform side behavior access wanted.toUInt64.toNat buffer =
      r.perform side behavior access wanted buffer := by
  have hword : wanted.toUInt64.toNat.toUInt64 = wanted.toUInt64 := UInt64.ofNat_toNat
  rw [perform, perform, hword]

theorem Holds.evolves_perform (h : r.Holds q) (side : Side) (behavior : Behavior)
    (access : Access) (wanted : Nat) (buffer : Array UInt8)
    (hsize : wanted * r.elementSize ≤ buffer.size) :
    r.Evolves (r.perform side behavior access wanted buffer).2.2 := by
  have hlt : wanted.toUInt64.toNat < UInt64.size := UInt64.toNat_lt _
  have hle : wanted.toUInt64.toNat ≤ wanted := Nat.mod_le _ _
  obtain ⟨q', hq'⟩ : ∃ q', (r.perform side behavior access wanted buffer).2.2.Holds q' := by
    rw [← perform_toUInt64]
    cases side with
    | producer =>
        obtain ⟨r', hperform, -, hholds⟩ := perform_producer h behavior access hlt buffer
        rw [hperform]
        exact ⟨_, hholds⟩
    | consumer =>
        obtain ⟨_, r', hperform, -, -, -, -, hholds⟩ :=
          perform_consumer h behavior access hlt buffer ((Nat.mul_le_mul_right _ hle).trans hsize)
        rw [hperform]
        exact ⟨_, hholds⟩
  obtain ⟨state, hring⟩ := r.perform_ring side behavior access wanted buffer
  rw [hring] at hq' ⊢
  exact ⟨state, q', rfl, hq'⟩

theorem Holds.evolves_putElements (h : r.Holds q) (access : Access) (behavior : Behavior)
    (objects : Array UInt8) (elementSize : Nat) :
    r.Evolves (r.putElements access behavior objects elementSize).2 := by
  rw [putElements]
  cases hcheck : checkElements r.shape objects.size elementSize with
  | error e => exact .refl h
  | ok n => exact h.evolves_perform _ _ _ _ _ (checkElements_le hcheck)

theorem Holds.evolves_getElements (h : r.Holds q) (access : Access) (behavior : Behavior)
    (out : Array UInt8) (elementSize : Nat) :
    r.Evolves (r.getElements access behavior out elementSize).2.2 := by
  rw [getElements]
  cases hcheck : checkElements r.shape out.size elementSize with
  | error e => exact .refl h
  | ok n => exact h.evolves_perform _ _ _ _ _ (checkElements_le hcheck)

theorem Holds.evolves_putHandles (h : r.Holds q) (access : Access) (behavior : Behavior)
    (handles : Array UInt64) : r.Evolves (r.putHandles access behavior handles).2 := by
  rw [putHandles]
  cases hcheck : checkHandles r.shape handles.size with
  | error e => exact .refl h
  | ok u =>
      exact h.evolves_perform _ _ _ _ _ (checkElements_le (checkElements_of_checkHandles hcheck))

theorem Holds.evolves_getHandles (h : r.Holds q) (access : Access) (behavior : Behavior)
    (out : Array UInt64) : r.Evolves (r.getHandles access behavior out).2.2 := by
  rw [getHandles]
  cases hcheck : checkHandles r.shape out.size with
  | error e => exact .refl h
  | ok u =>
      exact h.evolves_perform _ _ _ _ _ (checkElements_le (checkElements_of_checkHandles hcheck))

theorem Holds.evolves_answer (h : r.Holds q) (call : RingCall) : r.Evolves (r.answer call).2 := by
  cases call with
  | enqueue handles t => exact h.evolves_putHandles ..
  | dequeue out t => exact h.evolves_getHandles ..
  | enqueueElements objects elementSize t => exact h.evolves_putElements ..
  | dequeueElements out elementSize t => exact h.evolves_getElements ..
  | enqueueOne handle => exact h.evolves_putHandles _ _ #[handle]
  | dequeueOne => exact h.evolves_getHandles _ _ #[0]
  | count | freeCount | isFull | isEmpty => exact .refl h

theorem Holds.evolves_after (calls : List RingCall) :
    ∀ {r : Ring} {q : List (List UInt8)}, r.Holds q → r.Evolves (r.after calls) := by
  induction calls with
  | nil => intro r q h; exact .refl h
  | cons call calls ih =>
      intro r q h
      have hfirst := h.evolves_answer call
      obtain ⟨q', hq'⟩ := hfirst.holds
      exact hfirst.trans (ih hq')

end Ring

/-! ### Calls on endpoints -/

/-- One call on an endpoint, the producer or the consumer. -/
inductive SplitCall where
  | enqueue (handles : Array UInt64) (behavior : Behavior)
  | dequeue (out : Array UInt64) (behavior : Behavior)
  | enqueueElements (objects : Array UInt8) (elementSize : Nat) (behavior : Behavior)
  | dequeueElements (out : Array UInt8) (elementSize : Nat) (behavior : Behavior)
  | enqueueOne (handle : UInt64)
  | dequeueOne
  | freeCount
  | count
  | info
  deriving Repr

/-- What such a call gives back: an answer as a ring gives it, or all there is to say. -/
inductive SplitAnswer where
  | ring (answer : RingAnswer)
  | info (info : RingInfo)
  deriving DecidableEq, Repr

namespace Endpoints

/-- Makes a call on the endpoint that it is for. -/
def answer (e : Endpoints) : SplitCall → SplitAnswer × Endpoints
  | .enqueue handles behavior =>
    let (outcome, e) := e.enqueue handles behavior
    (.ring (.stored outcome), e)
  | .dequeue out behavior =>
    let (outcome, out, e) := e.dequeue out behavior
    (.ring (.handles outcome out), e)
  | .enqueueElements objects elementSize behavior =>
    let (outcome, e) := e.enqueueElements objects elementSize behavior
    (.ring (.stored outcome), e)
  | .dequeueElements out elementSize behavior =>
    let (outcome, out, e) := e.dequeueElements out elementSize behavior
    (.ring (.elements outcome out), e)
  | .enqueueOne handle =>
    let (outcome, e) := e.enqueueOne handle
    (.ring (.accepted outcome), e)
  | .dequeueOne =>
    let (outcome, e) := e.dequeueOne
    (.ring (.handle outcome), e)
  | .freeCount => (.ring (.number e.freeCount), e)
  | .count => (.ring (.number e.count), e)
  | .info => (.info e.info, e)

/-- Makes calls one after another. -/
def run (e : Endpoints) : List SplitCall → List SplitAnswer × Endpoints
  | [] => ([], e)
  | call :: calls =>
    let (answer, e) := e.answer call
    let (answers, e) := e.run calls
    (answer :: answers, e)

end Endpoints

/-- The same call on a ring that is not split, where a transfer may force the mode `sync`. -/
def SplitCall.shared? (sync : Option SyncMode) : SplitCall → Option RingCall
  | .enqueue handles behavior => some (.enqueue handles ⟨behavior, sync⟩)
  | .dequeue out behavior => some (.dequeue out ⟨behavior, sync⟩)
  | .enqueueElements objects elementSize behavior =>
    some (.enqueueElements objects elementSize ⟨behavior, sync⟩)
  | .dequeueElements out elementSize behavior =>
    some (.dequeueElements out elementSize ⟨behavior, sync⟩)
  | .enqueueOne handle => some (.enqueueOne handle)
  | .dequeueOne => some .dequeueOne
  | .freeCount => some .freeCount
  | .count => some .count
  | .info => none

namespace Ring

/-- Makes a call of an endpoint on a ring that is not split. -/
def answerSplit (r : Ring) (sync : Option SyncMode) (call : SplitCall) : SplitAnswer × Ring :=
  match call.shared? sync with
  | some call =>
    let (answer, r) := r.answer call
    (.ring answer, r)
  | none => (.info r.info, r)

/-- Makes such calls one after another, each with the mode it forces. -/
def runSplit (r : Ring) : List (SplitCall × Option SyncMode) → List SplitAnswer × Ring
  | [] => ([], r)
  | (call, sync) :: calls =>
    let (answer, r) := r.answerSplit sync call
    let (answers, r) := r.runSplit calls
    (answer :: answers, r)

theorem Holds.evolves_answerSplit {r : Ring} {q : List (List UInt8)} (h : r.Holds q)
    (sync : Option SyncMode) (call : SplitCall) : r.Evolves (r.answerSplit sync call).2 := by
  rw [answerSplit]
  split
  · exact h.evolves_answer _
  · exact .refl h

end Ring

namespace Endpoints

variable {e : Endpoints} {q : List (List UInt8)}

theorem after_eq (e : Endpoints) (side : Side) (behavior : Behavior) (wanted : Nat)
    (buffer : Array UInt8) :
    let done := e.ring.perform side behavior .owned wanted buffer
    (e.after side behavior wanted buffer).1 = done.1 ∧
      (e.after side behavior wanted buffer).2.1 = done.2.1 ∧
      (e.after side behavior wanted buffer).2.2.ring = done.2.2 := by
  unfold after
  split
  rename_i h
  exact ⟨(congrArg Prod.fst h).symm, (congrArg (·.2.1) h).symm, (congrArg (·.2.2) h).symm⟩

theorem enqueue_owned (e : Endpoints) (handles : Array UInt64) (behavior : Behavior) :
    (e.enqueue handles behavior).1 = (e.ring.putHandles .owned behavior handles).1 ∧
      (e.enqueue handles behavior).2.ring = (e.ring.putHandles .owned behavior handles).2 := by
  rw [enqueue, Ring.putHandles]
  cases Ring.checkHandles e.ring.shape handles.size with
  | error cause => exact ⟨rfl, rfl⟩
  | ok u =>
      obtain ⟨houtcome, -, hring⟩ :=
        e.after_eq .producer behavior handles.size (Handle.pack handles)
      exact ⟨houtcome, hring⟩

theorem enqueueElements_owned (e : Endpoints) (objects : Array UInt8) (elementSize : Nat)
    (behavior : Behavior) :
    (e.enqueueElements objects elementSize behavior).1 =
        (e.ring.putElements .owned behavior objects elementSize).1 ∧
      (e.enqueueElements objects elementSize behavior).2.ring =
        (e.ring.putElements .owned behavior objects elementSize).2 := by
  rw [enqueueElements, Ring.putElements]
  cases Ring.checkElements e.ring.shape objects.size elementSize with
  | error cause => exact ⟨rfl, rfl⟩
  | ok n =>
      obtain ⟨houtcome, -, hring⟩ := e.after_eq .producer behavior n objects
      exact ⟨houtcome, hring⟩

theorem dequeue_owned (e : Endpoints) (out : Array UInt64) (behavior : Behavior) :
    (e.dequeue out behavior).1 = (e.ring.getHandles .owned behavior out).1 ∧
      (e.dequeue out behavior).2.1 = (e.ring.getHandles .owned behavior out).2.1 ∧
      (e.dequeue out behavior).2.2.ring = (e.ring.getHandles .owned behavior out).2.2 := by
  rw [dequeue, Ring.getHandles]
  cases Ring.checkHandles e.ring.shape out.size with
  | error cause => exact ⟨rfl, rfl, rfl⟩
  | ok u =>
      obtain ⟨houtcome, hbuffer, hring⟩ :=
        e.after_eq .consumer behavior out.size (Handle.pack out)
      exact ⟨houtcome, congrArg (Handle.unpack · out.size) hbuffer, hring⟩

theorem dequeueElements_owned (e : Endpoints) (out : Array UInt8) (elementSize : Nat)
    (behavior : Behavior) :
    (e.dequeueElements out elementSize behavior).1 =
        (e.ring.getElements .owned behavior out elementSize).1 ∧
      (e.dequeueElements out elementSize behavior).2.1 =
        (e.ring.getElements .owned behavior out elementSize).2.1 ∧
      (e.dequeueElements out elementSize behavior).2.2.ring =
        (e.ring.getElements .owned behavior out elementSize).2.2 := by
  rw [dequeueElements, Ring.getElements]
  cases Ring.checkElements e.ring.shape out.size elementSize with
  | error cause => exact ⟨rfl, rfl, rfl⟩
  | ok n => exact e.after_eq .consumer behavior n out

/-- One call: an endpoint answers as the ring would, and leaves it as the ring would be left. -/
theorem answer_eq (h : e.ring.AnyAccess) (sync : Option SyncMode) (call : SplitCall) :
    (e.answer call).1 = (e.ring.answerSplit sync call).1 ∧
      (e.answer call).2.ring = (e.ring.answerSplit sync call).2 := by
  cases call with
  | enqueue handles behavior =>
      obtain ⟨houtcome, hring⟩ := e.enqueue_owned handles behavior
      rw [h.putHandles .owned (e.ring.sharedAccess .producer ⟨behavior, sync⟩)]
        at houtcome hring
      exact ⟨congrArg (SplitAnswer.ring ∘ RingAnswer.stored) houtcome, hring⟩
  | enqueueElements objects elementSize behavior =>
      obtain ⟨houtcome, hring⟩ := e.enqueueElements_owned objects elementSize behavior
      rw [h.putElements .owned (e.ring.sharedAccess .producer ⟨behavior, sync⟩)]
        at houtcome hring
      exact ⟨congrArg (SplitAnswer.ring ∘ RingAnswer.stored) houtcome, hring⟩
  | dequeue out behavior =>
      obtain ⟨houtcome, hout, hring⟩ := e.dequeue_owned out behavior
      rw [h.getHandles .owned (e.ring.sharedAccess .consumer ⟨behavior, sync⟩)]
        at houtcome hout hring
      exact ⟨congrArg SplitAnswer.ring (congrArg₂ RingAnswer.handles houtcome hout), hring⟩
  | dequeueElements out elementSize behavior =>
      obtain ⟨houtcome, hout, hring⟩ := e.dequeueElements_owned out elementSize behavior
      rw [h.getElements .owned (e.ring.sharedAccess .consumer ⟨behavior, sync⟩)]
        at houtcome hout hring
      exact ⟨congrArg SplitAnswer.ring (congrArg₂ RingAnswer.elements houtcome hout), hring⟩
  | enqueueOne handle =>
      obtain ⟨houtcome, hring⟩ := e.enqueue_owned #[handle] .exactly
      rw [h.putHandles .owned (e.ring.sharedAccess .producer .bulk)] at houtcome hring
      refine ⟨congrArg (SplitAnswer.ring ∘ RingAnswer.accepted) ?_, hring⟩
      exact congrArg (Except.map (· == 1)) houtcome
  | dequeueOne =>
      obtain ⟨houtcome, hout, hring⟩ := e.dequeue_owned #[0] .exactly
      rw [h.getHandles .owned (e.ring.sharedAccess .consumer .bulk)] at houtcome hout hring
      refine ⟨congrArg (SplitAnswer.ring ∘ RingAnswer.handle) ?_, hring⟩
      exact congrArg₂ (fun outcome (out : Array UInt64) =>
        Except.map (fun n => if n = 1 then out[0]? else none) outcome) houtcome hout
  | freeCount | count | info => exact ⟨rfl, rfl⟩

theorem run_eq (calls : List (SplitCall × Option SyncMode)) :
    ∀ {e : Endpoints} {q : List (List UInt8)}, e.ring.Holds q →
      (e.run (calls.map Prod.fst)).1 = (e.ring.runSplit calls).1 ∧
        (e.run (calls.map Prod.fst)).2.ring = (e.ring.runSplit calls).2 := by
  induction calls with
  | nil => intro e q _; exact ⟨rfl, rfl⟩
  | cons first calls ih =>
      obtain ⟨call, sync⟩ := first
      intro e q h
      obtain ⟨hanswer, hring⟩ := answer_eq h.anyAccess sync call
      obtain ⟨q', hq'⟩ := (h.evolves_answerSplit sync call).holds
      rw [← hring] at hq'
      obtain ⟨hanswers, hlast⟩ := ih hq'
      rw [hring] at hanswers hlast
      exact ⟨congrArg₂ List.cons hanswer hanswers, hlast⟩

end Endpoints

namespace Ring

/-- **A split ring goes on as it was.**  After any calls on a ring that was created, a split
succeeds if both sides are for one caller, and otherwise names the first side that is not.  It
keeps the ring as it is; and from then on calls on the endpoints, one after another, give the
answers, write the buffers and leave the ring that the same calls on the ring itself would,
whichever modes these force. -/
theorem split_goes_on {memory : Memory} {name : RingName} {capacity elementSize : UInt64}
    {producer consumer : SyncMode} {r : Ring}
    (hcreate : create memory name capacity elementSize producer consumer = .ok r)
    (before : List RingCall) :
    (producer = .multi →
      (r.after before).split = .error (.notSplittable name.text .producer)) ∧
    (producer = .single → consumer = .multi →
      (r.after before).split = .error (.notSplittable name.text .consumer)) ∧
    (producer = .single → consumer = .single →
      ∃ e, (r.after before).split = .ok e ∧ e.ring = r.after before ∧
        ∀ calls : List (SplitCall × Option SyncMode),
          (e.run (calls.map Prod.fst)).1 = ((r.after before).runSplit calls).1 ∧
            (e.run (calls.map Prod.fst)).2.ring = ((r.after before).runSplit calls).2) := by
  obtain ⟨shape, -, -, hbuild, rfl⟩ := create_eq_ok hcreate
  have hevolves := Holds.evolves_after before
    (Represents.initial name hbuild producer consumer).holds
  obtain ⟨q, hq⟩ := hevolves.holds
  obtain ⟨state, -, hring, -⟩ := hevolves
  have hproducer : ((ofShape name shape producer consumer).after before).producerMode = producer :=
    congrArg producerMode hring
  have hconsumer : ((ofShape name shape producer consumer).after before).consumerMode = consumer :=
    congrArg consumerMode hring
  have hname : ((ofShape name shape producer consumer).after before).name = name :=
    congrArg Ring.name hring
  refine ⟨?_, ?_, ?_⟩
  · rintro rfl
    rw [split, dif_neg (by rw [hproducer]; decide), hname]
  · rintro rfl rfl
    rw [split, dif_pos hproducer, dif_neg (by rw [hconsumer]; decide), hname]
  · rintro rfl rfl
    refine ⟨⟨_, hproducer, hconsumer⟩, ?_, rfl, fun calls => Endpoints.run_eq calls hq⟩
    rw [split, dif_pos hproducer, dif_pos hconsumer]

/-- With one handle in it a ring of two slots is filled, refuses a burst, and is emptied. -/
def splitCalls : List (SplitCall × Option SyncMode) :=
  [(.freeCount, none), (.enqueue #[513, 7] .exactly, some .multi),
    (.enqueue #[513, 7] .atMost, some .multi), (.enqueueOne 1, none),
    (.dequeueElements (Array.replicate 8 9) 8 .exactly, some .single),
    (.dequeueElements #[1, 2, 3] 8 .atMost, none), (.count, none),
    (.dequeue #[5, 5] .atMost, some .multi), (.dequeueOne, none)]

theorem split_goes_on_splitCalls :
    ∃ r e, create (.below 100) ⟨"split", by decide⟩ 2 8 .single .single = .ok r ∧
      (r.after [.enqueueOne 6, .enqueueOne 8, .dequeueOne]).split = .ok e ∧
      (e.run (splitCalls.map Prod.fst)).1 =
        [.ring (.number 1), .ring (.stored (.ok 0)), .ring (.stored (.ok 1)),
          .ring (.accepted (.ok false)), .ring (.elements (.ok 1) #[8, 0, 0, 0, 0, 0, 0, 0]),
          .ring (.elements (.error (.refused (.misalignedBuffer 3 8))) #[1, 2, 3]),
          .ring (.number 1), .ring (.handles (.ok 1) #[513, 5]), .ring (.handle (.ok none))] := by
  have hcreate : create (.below 100) ⟨"split", by decide⟩ 2 8 .single .single = .ok _ := rfl
  obtain ⟨e, hsplit, -, hrun⟩ :=
    (split_goes_on hcreate [.enqueueOne 6, .enqueueOne 8, .dequeueOne]).2.2 rfl rfl
  exact ⟨_, e, hcreate, hsplit, (hrun splitCalls).1.trans (by decide +kernel)⟩

end Ring

end BurstRing
