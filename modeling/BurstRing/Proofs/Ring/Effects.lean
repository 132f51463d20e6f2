import BurstRing.Proofs.Ring.Builds
import BurstRing.Proofs.Ring.Endpoints

/-!
# A transfer changes what it reports and nothing else

Whatever the interface, shared or endpoint, handles or bytes, a transfer checks one request
(`TransferRequest`) and then lets one call run (`Ring.transferBytes`).  So one statement serves them
all (`Ring.Contained`): which requests are refused and how, that a ring and a buffer are as before
when nothing was moved, and which bytes may differ when something was.

A side is ready for a transfer where no claim is held on it, be it between calls made one after
another or amid the steps of other callers (`Ring.Found`); the other side may hold claims, and slots
that a consumer has claimed and not released count as occupied.  On a side with claims of others
that are not yet published a transfer is refused, or finds nothing to move, just as well; one that
does find something is held up until they are (`Ring.HeldUp`), and nothing else can happen
(`Ring.transfers_contained`).

In a build that checks for overflow a transfer does the same as in any other, as long as no claim
that it may make gets to `2 ^ 64` (`Ring.Fits`), which is so in every state that is found here
(`Ring.Found.fits`).
-/

namespace BurstRing

/-! ### Requests -/

/-- A transfer as it is asked for: its side, whether it is to move all or as many as there are, how
wide it takes an element to be, and the bytes of its buffer. -/
structure TransferRequest where
  side : Side
  behavior : Behavior
  width : Nat
  buffer : Array UInt8

/-- Elements asked for, as the word that they are asked for in. -/
def TransferRequest.wanted (request : TransferRequest) : Nat :=
  (request.buffer.size / request.width).toUInt64.toNat

/-- The transfer that a call asks for, if it asks for one. -/
def RingCall.request? : RingCall → Option TransferRequest
  | .enqueue handles t => some ⟨.producer, t.behavior, handleSize, Handle.pack handles⟩
  | .dequeue out t => some ⟨.consumer, t.behavior, handleSize, Handle.pack out⟩
  | .enqueueElements objects elementSize t => some ⟨.producer, t.behavior, elementSize, objects⟩
  | .dequeueElements out elementSize t => some ⟨.consumer, t.behavior, elementSize, out⟩
  | .enqueueOne handle => some ⟨.producer, .exactly, handleSize, Handle.pack #[handle]⟩
  | .dequeueOne => some ⟨.consumer, .exactly, handleSize, Handle.pack #[0]⟩
  | .count | .freeCount | .isFull | .isEmpty => none

/-- The transfer that a call on an endpoint asks for, if it asks for one. -/
def SplitCall.request? (call : SplitCall) : Option TransferRequest :=
  (call.shared? none).bind RingCall.request?

/-- The number of elements that an answer reports, or what kept the transfer from one. -/
def RingAnswer.outcome? : RingAnswer → Option (Except TransferFault Nat)
  | .stored outcome | .handles outcome _ | .elements outcome _ => some outcome
  | .accepted outcome => some (outcome.map Bool.toNat)
  | .handle outcome => some (outcome.map fun handle => handle.isSome.toNat)
  | .number _ | .truth _ => none

/-- The bytes of the buffer that an answer gives back. -/
def RingAnswer.bytes? : RingAnswer → Option (Array UInt8)
  | .handles _ out => some (Handle.pack out)
  | .elements _ out => some out
  | _ => none

/-! ### Calls on a side that is held -/

namespace Call

variable {shape : Shape} {s : RingState} {c : Call}

/-- A call that waits for an earlier claim waits as long as it is alone. -/
theorem runAlone_waiting {claim : Claim} (hphase : c.phase = .publish claim)
    (haccess : c.access = .shared .multi) (htail : (s.cursors c.side).tail ≠ claim.start)
    (fuel : Nat) : c.runAlone shape fuel s = (s, c) := by
  obtain ⟨side, behavior, access, wanted, buffer, phase⟩ := c
  dsimp only at hphase haccess htail
  subst hphase haccess
  induction fuel with
  | zero => rfl
  | succ fuel ih =>
      rw [runAlone, isOver, if_neg Bool.false_ne_true]
      simp only [step, settle, if_neg htail, RingState.setCursors_cursors]
      exact ih

/-- A call that has something to claim on a side that is held does not come to publish it. -/
theorem runAlone_held {mode : SyncMode} {room : Nat} (hbuild : shape.overflow = .wrapping)
    (hphase : c.phase = .loadHead) (haccess : c.access = .shared mode)
    (hroom : (c.room shape s).toNat = room) (hle : room ≤ shape.capacity)
    (hshare : c.behavior.share c.wanted.toNat room ≠ 0)
    (hheld : (s.cursors c.side).tail ≠ (s.cursors c.side).head) :
    ∃ (s' : RingState) (target : Array UInt8) (claim : Claim), c.runAlone shape c.steps s =
        (s', { c with buffer := target, phase := .publish claim }) ∨
      c.runAlone shape c.steps s = (s', { c with
        buffer := target, phase := .broken .concurrentPublication (some claim) }) := by
  rcases share_cases c hphase hroom hle with ⟨hzero, -⟩ | ⟨k, hk, -, hlen, hcopy⟩
  · exact absurd hzero hshare
  set claim : Claim := ⟨(s.cursors c.side).head, (s.cursors c.side).head + k⟩
  have hfits : ¬ claim.Overruns shape.overflow := claim.not_overruns_of_wrapping hbuild
  obtain ⟨storage, target, hcopied⟩ := reaches_copied hfits c.side k.toNat 0
    (s.setCursors c.side ((s.cursors c.side).reserve claim)) c.buffer (by rw [hlen, Nat.zero_add])
  set s' : RingState :=
    { s.setCursors c.side ((s.cursors c.side).reserve claim) with storage := storage } with hs'
  have hcopies : Reaches shape 1 s'
      { c with buffer := target, phase := .copy claim claim.len.toNat } s'
      { c with buffer := target, phase := .publish claim } := by
    refine .one rfl ?_
    simp only [step, Claim.length_of_not_overruns hfits, if_neg (Nat.lt_irrefl _)]
  have hreach : Reaches shape (3 + (k.toNat + 1)) s c s'
      { c with buffer := target, phase := .publish claim } :=
    hcopy.trans ((hcopied c rfl).trans hcopies)
  have htail : (s'.cursors c.side).tail = (s.cursors c.side).tail := by
    rw [hs']
    cases c.side <;> rfl
  rw [← htail] at hheld
  have hwanted : k.toNat ≤ c.wanted.toNat := hk.trans_le (c.behavior.share_le_wanted _ _)
  refine ⟨s', target, claim, ?_⟩
  cases mode with
  | single =>
      refine .inr ((hreach.trans (.one rfl ?_)).runAlone_eq rfl
        (show 3 + (k.toNat + 1) + 1 ≤ c.wanted.toNat + 6 by omega))
      have hstart : (s'.cursors c.side).tail ≠ claim.start := hheld
      simp only [step, settle, haccess, Cursors.publish, if_neg hstart,
        RingState.setCursors_cursors]
  | multi =>
      left
      obtain ⟨rest, hrest⟩ : ∃ rest, c.steps = rest + (3 + (k.toNat + 1)) :=
        Nat.exists_eq_add_of_le' (show 3 + (k.toNat + 1) ≤ c.wanted.toNat + 6 by omega)
      rw [hrest, hreach rest]
      exact runAlone_waiting (c := { c with buffer := target, phase := .publish claim }) rfl haccess
        hheld rest

end Call

namespace Ring

/-- The slot of the element that comes so many after the oldest one. -/
def slot (r : Ring) (i : Nat) : Nat := (r.state.consumer.tail.toNat + i) % r.capacity

/-- Elements that a request would move as the ring is. -/
def share (r : Ring) (request : TransferRequest) : Nat :=
  request.behavior.share request.wanted (r.state.claimable r.shape request.side)

/-- What is reported of a transfer on the ring `r`, and what it leaves of the buffer and of the
ring. -/
structure Contained (r : Ring) (request : TransferRequest) (outcome : Except TransferFault Nat)
    (buffer : Array UInt8) (r' : Ring) : Prop where
  mismatch_iff : outcome =
      .error (.refused (.elementSizeMismatch r.elementSize request.width)) ↔
    request.width ≠ r.elementSize
  empty_iff : outcome = .error (.refused .emptyRequest) ↔
    request.width = r.elementSize ∧ request.buffer.size = 0
  misaligned_iff : outcome =
      .error (.refused (.misalignedBuffer request.buffer.size request.width)) ↔
    request.width = r.elementSize ∧ request.buffer.size ≠ 0 ∧
      request.buffer.size % request.width ≠ 0
  counted_iff : (∃ n, outcome = .ok n) ↔ request.width = r.elementSize ∧
    request.buffer.size ≠ 0 ∧ request.buffer.size % request.width = 0
  count_eq : ∀ n, outcome = .ok n → n = r.share request
  /-- An error, or a count of nothing. -/
  unmoved : (∀ n, outcome = .ok n → n = 0) → r' = r ∧ buffer = request.buffer
  /-- A dequeue writes the first elements of the buffer only. -/
  fetched : request.side = .consumer → ∀ n, outcome = .ok n →
    r'.state.storage = r.state.storage ∧ buffer.size = request.buffer.size ∧
      ∀ j, n * request.width ≤ j → buffer[j]? = request.buffer[j]?
  /-- An enqueue writes the slots that follow the occupied ones only. -/
  stored : request.side = .producer → ∀ n, outcome = .ok n → ∀ j,
    r'.state.storage.get j ≠ r.state.storage.get j →
      ∃ i < n, j / r.elementSize = r.slot (r.count + i)
  unread : request.side = .producer → ∀ i < r.count, ∀ k < r.elementSize,
    r'.state.storage.get (r.slot i * r.elementSize + k) =
      r.state.storage.get (r.slot i * r.elementSize + k)

/-- A transfer that has something to move and does not come to an answer alone: it waits for claims
on its side that were granted before and are not yet published. -/
structure HeldUp (r : Ring) (request : TransferRequest) (outcome : Except TransferFault Nat) :
    Prop where
  width_eq : request.width = r.elementSize
  size_ne_zero : request.buffer.size ≠ 0
  size_mod : request.buffer.size % request.width = 0
  share_ne_zero : r.share request ≠ 0
  unpublished : (r.state.cursors request.side).tail ≠ (r.state.cursors request.side).head
  outcome_eq : outcome = .error .stalled ∨ outcome = .error (.panicked .concurrentPublication)

/-- What can be reported of a transfer on the ring `r`, and left by it. -/
def Answered (r : Ring) (request : TransferRequest) (outcome : Except TransferFault Nat)
    (buffer : Array UInt8) (r' : Ring) : Prop :=
  r.Contained request outcome buffer r' ∨ r.HeldUp request outcome

/-! ### One transfer for all interfaces -/

/-- Checks a request and lets its call run. -/
def transferBytes (r : Ring) (access : Access) (request : TransferRequest) :
    Except TransferFault Nat × Array UInt8 × Ring :=
  match checkElements r.shape request.buffer.size request.width with
  | .error e => (.error (.refused e), request.buffer, r)
  | .ok n => r.perform request.side request.behavior access n request.buffer

variable {r : Ring}

theorem putElements_eq (r : Ring) (access : Access) (behavior : Behavior) (objects : Array UInt8)
    (elementSize : Nat) : r.putElements access behavior objects elementSize =
      let done := r.transferBytes access ⟨.producer, behavior, elementSize, objects⟩
      (done.1, done.2.2) := by
  simp only [putElements, transferBytes]
  cases checkElements r.shape objects.size elementSize <;> rfl

theorem getElements_eq (r : Ring) (access : Access) (behavior : Behavior) (out : Array UInt8)
    (elementSize : Nat) : r.getElements access behavior out elementSize =
      r.transferBytes access ⟨.consumer, behavior, elementSize, out⟩ :=
  rfl

theorem putHandles_eq (r : Ring) (access : Access) (behavior : Behavior)
    (handles : Array UInt64) : r.putHandles access behavior handles =
      let done := r.transferBytes access ⟨.producer, behavior, handleSize, Handle.pack handles⟩
      (done.1, done.2.2) := by
  simp only [putHandles, transferBytes, checkElements_handles]
  cases checkHandles r.shape handles.size <;> rfl

theorem getHandles_eq (r : Ring) (access : Access) (behavior : Behavior) (out : Array UInt64) :
    let done := r.transferBytes access ⟨.consumer, behavior, handleSize, Handle.pack out⟩
    let result := r.getHandles access behavior out
    result.1 = done.1 ∧ result.2.2 = done.2.2 ∧ result.2.1.size = out.size ∧
      (done.2.1.size = (Handle.pack out).size → Handle.pack result.2.1 = done.2.1) := by
  simp only [getHandles, transferBytes, checkElements_handles]
  cases checkHandles r.shape out.size with
  | error e => exact ⟨rfl, rfl, rfl, fun _ => rfl⟩
  | ok u =>
      refine ⟨rfl, rfl, ?_, fun hsize => Handle.pack_unpack (hsize.trans (Handle.size_pack out))⟩
      simp only [Handle.unpack, Array.size_map, Array.size_range]

/-! ### Slots and bytes -/

theorem count_eq_used {side : Side} (h : r.state.Ready r.shape side) : r.count = r.state.used :=
  Nat.min_eq_left h.used_le

/-- Behind the occupied slots come those of the positions after the producers' tail. -/
theorem slot_count_add {side : Side} (h : r.state.Ready r.shape side) (i : Nat) :
    r.slot (r.count + i) = (r.state.producer.tail.toNat + i) % r.capacity := by
  have htail : r.state.producer.tail =
      r.state.consumer.tail + (r.state.producer.tail - r.state.consumer.tail) := by
    rw [UInt64.add_comm, UInt64.sub_add_cancel]
  rw [slot, count_eq_used h, RingState.used]
  conv_rhs => rw [htail]
  exact (r.shape.mod_add_word _ _ _).symm

/-- Slots within one capacity are different. -/
theorem slot_ne {i j : Nat} (hlt : i < j) (hle : j < r.capacity) : r.slot i ≠ r.slot j := by
  intro (heq : (r.state.consumer.tail.toNat + i) % r.shape.capacity =
    (r.state.consumer.tail.toNat + j) % r.shape.capacity)
  have hsame := Shape.eq_of_mod_eq (Nat.le_add_right _ i)
    (Nat.add_lt_add_left (hlt.trans hle) _) (Nat.le_add_right _ j)
    (Nat.add_lt_add_left hle _) heq
  omega

/-! ### What a transfer leaves -/

/-- An error that leaves everything as it was is contained if it is the right one. -/
theorem contained_error {request : TransferRequest} {cause : RingError}
    (hmismatch : cause = .elementSizeMismatch r.elementSize request.width ↔
      request.width ≠ r.elementSize)
    (hempty : cause = .emptyRequest ↔
      request.width = r.elementSize ∧ request.buffer.size = 0)
    (hmisaligned : cause = .misalignedBuffer request.buffer.size request.width ↔
      request.width = r.elementSize ∧ request.buffer.size ≠ 0 ∧
        request.buffer.size % request.width ≠ 0)
    (hwrong : ¬ (request.width = r.elementSize ∧ request.buffer.size ≠ 0 ∧
      request.buffer.size % request.width = 0)) :
    r.Contained request (.error (.refused cause)) request.buffer r where
  mismatch_iff := by rw [Except.error.injEq, TransferFault.refused.injEq, hmismatch]
  empty_iff := by rw [Except.error.injEq, TransferFault.refused.injEq, hempty]
  misaligned_iff := by rw [Except.error.injEq, TransferFault.refused.injEq, hmisaligned]
  counted_iff := iff_of_false nofun hwrong
  count_eq := nofun
  unmoved _ := ⟨rfl, rfl⟩
  fetched := nofun
  stored := nofun
  unread _ _ _ _ _ := rfl

/-- A refused request leaves everything as it was. -/
theorem contained_refused {request : TransferRequest} {cause : RingError}
    (h : checkElements r.shape request.buffer.size request.width = .error cause) :
    r.Contained request (.error (.refused cause)) request.buffer r := by
  rcases checkElements_eq_error h with
    ⟨hwidth, rfl⟩ | ⟨hwidth, hsize, rfl⟩ | ⟨hwidth, hsize, hmod, rfl⟩
  · exact contained_error (iff_of_true rfl hwidth) (iff_of_false nofun fun h => hwidth h.1)
      (iff_of_false nofun fun h => hwidth h.1) fun h => hwidth h.1
  · exact contained_error (iff_of_false nofun (not_not.mpr hwidth))
      (iff_of_true rfl ⟨hwidth, hsize⟩) (iff_of_false nofun fun h => h.2.1 hsize)
      fun h => h.2.1 hsize
  · exact contained_error (iff_of_false nofun (not_not.mpr hwidth))
      (iff_of_false nofun fun h => hsize h.2) (iff_of_true rfl ⟨hwidth, hsize, hmod⟩)
      fun h => hmod h.2.2

/-- A transfer that is not refused is contained if what it moves is. -/
theorem contained_of_moved {request : TransferRequest} {wanted k : Nat} {buffer : Array UInt8}
    {r' : Ring} (h : checkElements r.shape request.buffer.size request.width = .ok wanted)
    (hshare : k = request.behavior.share wanted.toUInt64.toNat
      (r.state.claimable r.shape request.side))
    (hnone : k = 0 → r' = r ∧ buffer = request.buffer)
    (hfetched : request.side = .consumer → r'.state.storage = r.state.storage ∧
      buffer.size = request.buffer.size ∧
        ∀ j, k * request.width ≤ j → buffer[j]? = request.buffer[j]?)
    (hstored : request.side = .producer → k ≤ r.capacity - r.count ∧
      ∀ j, (∀ i < k, j / r.elementSize ≠ r.slot (r.count + i)) →
        r'.state.storage.get j = r.state.storage.get j) :
    r.Contained request (.ok k) buffer r' := by
  obtain ⟨hwidth, hsize, hmod, rfl⟩ := checkElements_eq_ok h
  refine
    { mismatch_iff := iff_of_false nofun (not_not.mpr hwidth)
      empty_iff := iff_of_false nofun fun h => hsize h.2
      misaligned_iff := iff_of_false nofun fun h => h.2.2 hmod
      counted_iff := iff_of_true ⟨k, rfl⟩ ⟨hwidth, hsize, hmod⟩
      count_eq := fun n hn => (Except.ok.inj hn).symm.trans hshare
      unmoved := fun hzero => hnone (hzero k rfl)
      fetched := fun hside n hn => ?fetched
      stored := fun hside n hn j hj => ?stored
      unread := fun hside i hi b hb => ?unread }
  case fetched =>
    cases hn
    exact hfetched hside
  case stored =>
    cases hn
    by_contra hslot
    exact hj ((hstored hside).2 j fun i hi heq => hslot ⟨i, hi, heq⟩)
  case unread =>
    obtain ⟨hfree, hout⟩ := hstored hside
    -- The byte lies in an occupied slot, which is none of those that follow.
    refine hout _ fun j hj => ?_
    have hpos : 0 < r.elementSize := r.shape.elementSize_pos'
    rw [Nat.add_comm, Nat.add_mul_div_right _ _ hpos, Nat.div_eq_of_lt hb, Nat.zero_add]
    exact slot_ne (by omega) (by omega)

theorem Contained.size_eq {request : TransferRequest} {outcome : Except TransferFault Nat}
    {buffer : Array UInt8} {r' : Ring} (h : r.Contained request outcome buffer r')
    (hside : request.side = .consumer) : buffer.size = request.buffer.size := by
  cases outcome with
  | ok n => exact (h.fetched hside n rfl).2.1
  | error fault => rw [(h.unmoved nofun).2]

/-- A transfer on a side that is ready is contained. -/
theorem contained_transferBytes (request : TransferRequest)
    (h : r.state.Ready r.shape request.side) (access : Access) :
    r.Contained request (r.transferBytes access request).1 (r.transferBytes access request).2.1
      (r.transferBytes access request).2.2 := by
  obtain ⟨side, behavior, width, buffer⟩ := request
  rw [transferBytes]
  cases hcheck : checkElements r.shape buffer.size width with
  | error cause => exact contained_refused hcheck
  | ok wanted =>
      have hword : wanted.toUInt64.toNat ≤ wanted := Nat.mod_le _ _
      have hpos : 0 < r.elementSize := r.shape.elementSize_pos'
      have hcount : r.count = r.state.used := count_eq_used h
      cases side with
      | producer =>
          obtain ⟨k, storage, hperform, hk, -, hout, hsame⟩ :=
            perform_store h behavior access wanted buffer
          have hrest : r.state.producer.tail = r.state.producer.head := h.rest
          have hfree : k.toNat ≤ r.capacity - r.count := by
            rw [hcount]
            exact hk.trans_le ((behavior.share_le_room _ _).trans_eq h.claimable_producer)
          simp only [hperform]
          refine contained_of_moved hcheck hk (fun hzero => ?_) nofun
            fun _ => ⟨hfree, fun j hj => ?_⟩
          · obtain rfl : k = 0 := UInt64.toNat_inj.mp hzero
            rw [hsame rfl, Cursors.mk_add_zero hrest]
            exact ⟨rfl, rfl⟩
          · refine getD_congr_of_recordAt hpos (hout _ fun i hi => ?_)
            rw [← hrest, ← slot_count_add h]
            exact hj i hi
      | consumer =>
          obtain ⟨(hwidth : width = r.elementSize), -⟩ := checkElements_eq_ok hcheck
          obtain ⟨k, target, hperform, hk, hsize, -, hout, hsame⟩ :=
            perform_fetch h behavior access wanted buffer
              ((Nat.mul_le_mul_right _ hword).trans (checkElements_le hcheck))
          have hrest : r.state.consumer.tail = r.state.consumer.head := h.rest
          simp only [hperform]
          refine contained_of_moved hcheck hk (fun hzero => ?_)
            (fun _ => ⟨rfl, hsize, fun j hj => ?_⟩) nofun
          · obtain rfl : k = 0 := UInt64.toNat_inj.mp hzero
            rw [hsame rfl, Cursors.mk_add_zero hrest]
            exact ⟨rfl, rfl⟩
          · have hbehind : k.toNat ≤ j / r.elementSize :=
              (Nat.le_div_iff_mul_le hpos).mpr (hwidth ▸ hj)
            exact getElem?_congr_of_getD hsize (getD_congr_of_recordAt hpos (hout _ hbehind))

/-! ### What a transfer beside others leaves -/

/-- A transfer that can take nothing is at its end before it has changed anything. -/
theorem perform_nothing {side : Side} {behavior : Behavior} {wanted : Nat}
    (h : r.state.Legible r.shape side)
    (hshare : behavior.share wanted.toUInt64.toNat (r.state.claimable r.shape side) = 0)
    (access : Access) (buffer : Array UInt8) :
    r.perform side behavior access wanted buffer = (.ok 0, buffer, r) := by
  obtain ⟨name, shape, producer, consumer, state⟩ := r
  set c := Call.begin side behavior access wanted.toUInt64 buffer with hc
  have hrun : c.runAlone shape c.steps state = (state, { c with phase := .done none }) := by
    rcases Call.share_cases c rfl h.room_eq h.claimable_le with ⟨-, hend⟩ | ⟨k, hk, hpos, -⟩
    · exact hend.runAlone_eq rfl (Nat.le_add_left 2 _)
    · exact absurd (hk.trans hshare) hpos.ne'
  rw [perform]
  dsimp only
  rw [← hc, hrun]
  rfl

theorem perform_held {side : Side} {behavior : Behavior} {wanted : Nat}
    (hbuild : r.shape.overflow = .wrapping) (h : r.state.Legible r.shape side)
    (hshare : behavior.share wanted.toUInt64.toNat (r.state.claimable r.shape side) ≠ 0)
    (hheld : (r.state.cursors side).tail ≠ (r.state.cursors side).head) (mode : SyncMode)
    (buffer : Array UInt8) :
    (r.perform side behavior (.shared mode) wanted buffer).1 = .error .stalled ∨
      (r.perform side behavior (.shared mode) wanted buffer).1 =
        .error (.panicked .concurrentPublication) := by
  obtain ⟨name, shape, producer, consumer, state⟩ := r
  set c := Call.begin side behavior (.shared mode) wanted.toUInt64 buffer with hc
  obtain ⟨s', target, claim, hrun | hrun⟩ :=
    Call.runAlone_held (c := c) hbuild rfl rfl h.room_eq h.claimable_le hshare hheld
  · left
    rw [perform]
    dsimp only
    rw [← hc, hrun]
  · right
    rw [perform]
    dsimp only
    rw [← hc, hrun]

/-- The answer of `transferBytes` is as it can be. -/
def Answers (r : Ring) (access : Access) (request : TransferRequest) : Prop :=
  r.Answered request (r.transferBytes access request).1 (r.transferBytes access request).2.1
    (r.transferBytes access request).2.2

/-- A transfer beside others is contained, or it is held up by them. -/
theorem answers_shared {request : TransferRequest} (hbuild : r.shape.overflow = .wrapping)
    (h : r.state.Legible r.shape request.side) (mode : SyncMode) :
    r.Answers (.shared mode) request := by
  by_cases hrest : (r.state.cursors request.side).tail = (r.state.cursors request.side).head
  · exact .inl (contained_transferBytes request ⟨hbuild, hrest, h.used_le⟩ _)
  rw [Answers, transferBytes]
  cases hcheck : checkElements r.shape request.buffer.size request.width with
  | error cause => exact .inl (contained_refused hcheck)
  | ok wanted =>
      obtain ⟨hwidth, hsize, hmod, rfl⟩ := checkElements_eq_ok hcheck
      by_cases hshare : r.share request = 0
      · simp only [perform_nothing h hshare]
        exact .inl (contained_of_moved hcheck hshare.symm (fun _ => ⟨rfl, rfl⟩)
          (fun _ => ⟨rfl, rfl, fun _ _ => rfl⟩) fun _ => ⟨Nat.zero_le _, fun _ _ => rfl⟩)
      · exact .inr ⟨hwidth, hsize, hmod, hshare, hrest,
          perform_held hbuild h hshare hrest mode request.buffer⟩

/-! ### Every build -/

theorem transferBytes_inBuild (overflow : Overflow) {request : TransferRequest}
    (h : r.state.Legible r.shape request.side)
    (hlt : ∀ wanted, r.reach request.side request.behavior wanted < 2 ^ 64) (access : Access) :
    (r.inBuild overflow).transferBytes access request =
      let done := r.transferBytes access request
      (done.1, done.2.1, done.2.2.inBuild overflow) := by
  rw [transferBytes, transferBytes]
  have hcheck : checkElements (r.inBuild overflow).shape = checkElements r.shape := rfl
  rw [hcheck]
  cases checkElements r.shape request.buffer.size request.width with
  | error cause => rfl
  | ok wanted => exact perform_inBuild overflow h (hlt wanted) access request.buffer

theorem Answered.inBuild (overflow : Overflow) {request : TransferRequest}
    {outcome : Except TransferFault Nat} {buffer : Array UInt8} {r' : Ring}
    (h : r.Answered request outcome buffer r') :
    (r.inBuild overflow).Answered request outcome buffer (r'.inBuild overflow) := by
  rcases h with hdone | hheld
  · refine .inl { hdone with unmoved := fun hzero => ?_ }
    obtain ⟨rfl, hbuffer⟩ := hdone.unmoved hzero
    exact ⟨rfl, hbuffer⟩
  · exact .inr { hheld with }

/-- No transfer on the side is kept from its claim by the build. -/
def Fits (r : Ring) (side : Side) : Prop :=
  r.shape.overflow = .checked → ∀ behavior wanted, r.reach side behavior wanted < 2 ^ 64

/-- What can be answered where no length runs over is answered by a build where none does. -/
theorem Answers.of_fits {access : Access} {request : TransferRequest}
    (h : (r.inBuild .wrapping).Answers access request)
    (hlegible : r.state.Legible r.shape request.side) (hfits : r.Fits request.side) :
    r.Answers access request := by
  cases hbuild : r.shape.overflow with
  | wrapping => rwa [inBuild_of_eq hbuild] at h
  | checked =>
      have hdone := transferBytes_inBuild .checked (r := r.inBuild .wrapping)
        (hlegible.inBuild .wrapping)
        (hfits hbuild request.behavior) access
      rw [inBuild_inBuild, inBuild_of_eq hbuild] at hdone
      have hanswered := Answered.inBuild .checked h
      rw [inBuild_inBuild, inBuild_of_eq hbuild] at hanswered
      rw [Answers, hdone]
      exact hanswered

/-! ### Every interface -/

/-- Nothing is said of a buffer that the caller is not given back. -/
theorem Contained.forget {request : TransferRequest} {outcome : Except TransferFault Nat}
    {buffer : Array UInt8} {r' : Ring} (h : r.Contained request outcome buffer r') :
    r.Contained request outcome request.buffer r' :=
  { h with
    unmoved := fun hzero => ⟨(h.unmoved hzero).1, rfl⟩
    fetched := fun hside n hn => ⟨(h.fetched hside n hn).1, rfl, fun _ _ => rfl⟩ }

theorem Answered.forget {request : TransferRequest} {outcome : Except TransferFault Nat}
    {buffer : Array UInt8} {r' : Ring} (h : r.Answered request outcome buffer r') :
    r.Answered request outcome request.buffer r' :=
  h.imp_left Contained.forget

theorem HeldUp.ne_ok {request : TransferRequest} {outcome : Except TransferFault Nat}
    (h : r.HeldUp request outcome) (n : Nat) : outcome ≠ .ok n := by
  rcases h.outcome_eq with rfl | rfl <;> nofun

section

variable {access : Access} {behavior : Behavior}

theorem Answers.putElements {objects : Array UInt8} {elementSize : Nat}
    (h : r.Answers access ⟨.producer, behavior, elementSize, objects⟩) :
    r.Answered ⟨.producer, behavior, elementSize, objects⟩
      (r.putElements access behavior objects elementSize).1 objects
      (r.putElements access behavior objects elementSize).2 := by
  rw [putElements_eq]
  exact Answered.forget h

theorem Answers.getElements {out : Array UInt8} {elementSize : Nat}
    (h : r.Answers access ⟨.consumer, behavior, elementSize, out⟩) :
    r.Answered ⟨.consumer, behavior, elementSize, out⟩
      (r.getElements access behavior out elementSize).1
      (r.getElements access behavior out elementSize).2.1
      (r.getElements access behavior out elementSize).2.2 := by
  rw [getElements_eq]
  exact h

theorem Answers.putHandles {handles : Array UInt64}
    (h : r.Answers access ⟨.producer, behavior, handleSize, Handle.pack handles⟩) :
    r.Answered ⟨.producer, behavior, handleSize, Handle.pack handles⟩
      (r.putHandles access behavior handles).1 (Handle.pack handles)
      (r.putHandles access behavior handles).2 := by
  rw [putHandles_eq]
  exact Answered.forget h

theorem Answers.getHandles {out : Array UInt64}
    (h : r.Answers access ⟨.consumer, behavior, handleSize, Handle.pack out⟩) :
    r.Answered ⟨.consumer, behavior, handleSize, Handle.pack out⟩
      (r.getHandles access behavior out).1 (Handle.pack (r.getHandles access behavior out).2.1)
      (r.getHandles access behavior out).2.2 := by
  obtain ⟨houtcome, hring, -, hbuffer⟩ := r.getHandles_eq access behavior out
  rw [houtcome, hring]
  rcases h with hdone | hheld
  · rw [hbuffer (hdone.size_eq rfl)]
    exact .inl hdone
  · exact .inr hheld

end

/-- A transfer of one handle is for one element at most. -/
theorem Answered.le_one {side : Side} {handle : UInt64} {outcome : Except TransferFault Nat}
    {buffer : Array UInt8} {r' : Ring} {n : Nat}
    (h : r.Answered ⟨side, .exactly, handleSize, Handle.pack #[handle]⟩ outcome buffer r')
    (hn : outcome = .ok n) : n ≤ 1 := by
  rcases h with hdone | hheld
  · have hsize : (Handle.pack #[handle]).size = 1 * handleSize := Handle.size_pack _
    have hwanted :
        TransferRequest.wanted ⟨side, .exactly, handleSize, Handle.pack #[handle]⟩ = 1 := by
      rw [TransferRequest.wanted, hsize, Nat.mul_div_cancel _ (by decide)]
      rfl
    rw [hdone.count_eq n hn, share, hwanted]
    exact Behavior.share_le_wanted ..
  · exact absurd hn (hheld.ne_ok n)

theorem Answered.accepted {side : Side} {handle : UInt64} {outcome : Except TransferFault Nat}
    {buffer : Array UInt8} {r' : Ring}
    (h : r.Answered ⟨side, .exactly, handleSize, Handle.pack #[handle]⟩ outcome buffer r') :
    (outcome.map (· == 1)).map Bool.toNat = outcome := by
  cases outcome with
  | error fault => rfl
  | ok n =>
      have hle := h.le_one rfl
      obtain rfl | rfl : n = 0 ∨ n = 1 := by omega
      · rfl
      · rfl

theorem Answered.taken {side : Side} {handle : UInt64} {outcome : Except TransferFault Nat}
    {buffer : Array UInt8} {r' : Ring} {out : Array UInt64} (hout : out.size = 1)
    (h : r.Answered ⟨side, .exactly, handleSize, Handle.pack #[handle]⟩ outcome buffer r') :
    (outcome.map fun n => if n = 1 then out[0]? else none).map (fun handle => handle.isSome.toNat) =
      outcome := by
  cases outcome with
  | error fault => rfl
  | ok n =>
      have hle := h.le_one rfl
      obtain rfl | rfl : n = 0 ∨ n = 1 := by omega
      · rfl
      · rw [Except.map, Except.map, if_pos rfl, Array.getElem?_eq_getElem (by omega)]
        rfl

/-- The answer to a call that asks for a transfer. -/
theorem answered {call : RingCall} {request : TransferRequest}
    (hrequest : call.request? = some request)
    (h : ∀ mode, r.Answers (.shared mode) request) :
    ∃ outcome, (r.answer call).1.outcome? = some outcome ∧ r.Answered request outcome
      ((r.answer call).1.bytes?.getD request.buffer) (r.answer call).2 := by
  cases call with
  | enqueue handles t =>
      cases hrequest
      exact ⟨_, rfl, (h _).putHandles⟩
  | dequeue out t =>
      cases hrequest
      exact ⟨_, rfl, (h _).getHandles⟩
  | enqueueElements objects elementSize t =>
      cases hrequest
      exact ⟨_, rfl, (h _).putElements⟩
  | dequeueElements out elementSize t =>
      cases hrequest
      exact ⟨_, rfl, (h _).getElements⟩
  | enqueueOne handle =>
      cases hrequest
      have hdone := (h (Transfer.bulk.resolve (r.mode .producer))).putHandles
      exact ⟨_, congrArg some hdone.accepted, hdone⟩
  | dequeueOne =>
      cases hrequest
      have hdone := (h (Transfer.bulk.resolve (r.mode .consumer))).getHandles
      have hsize := (r.getHandles_eq (r.sharedAccess .consumer .bulk) .exactly #[0]).2.2.1
      exact ⟨_, congrArg some (hdone.taken hsize), hdone.forget⟩
  | count | freeCount | isFull | isEmpty => cases hrequest

/-- And on an endpoint. -/
theorem answered_split {e : Endpoints} {call : SplitCall} {request : TransferRequest}
    (hrequest : call.request? = some request)
    (h : e.ring.Answers .owned request) :
    ∃ answer outcome, (e.answer call).1 = .ring answer ∧ answer.outcome? = some outcome ∧
      e.ring.Answered request outcome (answer.bytes?.getD request.buffer)
        (e.answer call).2.ring := by
  cases call with
  | enqueue handles behavior =>
      cases hrequest
      obtain ⟨houtcome, hring⟩ := e.enqueue_owned handles behavior
      have hdone := h.putHandles
      rw [← houtcome, ← hring] at hdone
      exact ⟨_, _, rfl, rfl, hdone⟩
  | dequeue out behavior =>
      cases hrequest
      obtain ⟨houtcome, hout, hring⟩ := e.dequeue_owned out behavior
      have hdone := h.getHandles
      rw [← houtcome, ← hout, ← hring] at hdone
      exact ⟨_, _, rfl, rfl, hdone⟩
  | enqueueElements objects elementSize behavior =>
      cases hrequest
      obtain ⟨houtcome, hring⟩ := e.enqueueElements_owned objects elementSize behavior
      have hdone := h.putElements
      rw [← houtcome, ← hring] at hdone
      exact ⟨_, _, rfl, rfl, hdone⟩
  | dequeueElements out elementSize behavior =>
      cases hrequest
      obtain ⟨houtcome, hout, hring⟩ := e.dequeueElements_owned out elementSize behavior
      have hdone := h.getElements
      rw [← houtcome, ← hout, ← hring] at hdone
      exact ⟨_, _, rfl, rfl, hdone⟩
  | enqueueOne handle =>
      cases hrequest
      obtain ⟨houtcome, hring⟩ := e.enqueue_owned #[handle] .exactly
      have hdone := h.putHandles
      rw [← houtcome, ← hring] at hdone
      exact ⟨_, _, rfl, congrArg some hdone.accepted, hdone⟩
  | dequeueOne =>
      cases hrequest
      obtain ⟨houtcome, hout, hring⟩ := e.dequeue_owned #[0] .exactly
      have hsize := (e.ring.getHandles_eq .owned .exactly #[0]).2.2.1
      have hdone := h.getHandles
      rw [← hout] at hsize
      rw [← houtcome, ← hout, ← hring] at hdone
      exact ⟨_, _, rfl, congrArg some (hdone.taken hsize), hdone.forget⟩
  | freeCount | count | info => cases hrequest

end Ring

/-! ### Where a transfer begins -/

theorem Consistent.legible {shape : Shape} {s : RingState} {calls : List Call}
    (h : Consistent shape s calls) (side : Side) : s.Legible shape side where
  room_eq := h.toNat_available_eq side
  claimable_le := h.claimable_le side
  used_le := by
    have htail := (h.tiled .producer).tail_le_head
    have hhead := h.head_le .producer
    simp only [RingState.cursors, RingState.horizon] at htail hhead
    rw [RingState.used, UInt64.toNat_sub_of_le _ _ (UInt64.le_iff_toNat_le.mpr h.tail_le_tail)]
    omega

/-- Where no claim is held on a side, its tail stands at its head. -/
theorem Consistent.ready {shape : Shape} {s : RingState} {calls : List Call}
    (h : Consistent shape s calls) {side : Side} (hfree : claimsOn side Call.held? calls = []) :
    s.Ready (shape.inBuild .wrapping) side where
  unchecked := rfl
  rest := by
    obtain ⟨-, after, -, ha, -, htile⟩ := h.tiled side
    rw [hfree] at ha
    obtain rfl := ha.eq_nil
    exact UInt64.toNat_inj.mp htile.sum_len
  used_le := (h.legible side).used_le

/-- A transfer ends at or before the position up to which its side may claim. -/
theorem Consistent.reach_le {r : Ring} {calls : List Call} (h : Consistent r.shape r.state calls)
    (side : Side) (behavior : Behavior) (wanted : Nat) :
    r.reach side behavior wanted ≤ r.state.horizon r.shape side := by
  have hhead := h.head_le side
  have hshare := behavior.share_le_room wanted.toUInt64.toNat (r.state.claimable r.shape side)
  have hclaimable := h.claimable_eq side
  rw [Ring.reach]
  omega

theorem Consistent.fits {r : Ring} {calls : List Call} (h : Consistent r.shape r.state calls)
    (hbound : r.shape.overflow = .checked →
      claimedOn .producer calls + r.shape.capacity < 2 ^ 64) (side : Side) : r.Fits side := by
  intro hbuild behavior wanted
  refine (h.reach_le side behavior wanted).trans_lt ?_
  cases side with
  | producer =>
      have hclaimed := h.claimedOn_eq .producer
      have htail := h.consumer_tail_le .producer
      have hlt := hbound hbuild
      simp only [RingState.horizon, RingState.cursors] at hclaimed htail ⊢
      omega
  | consumer => exact UInt64.toNat_lt _

namespace Ring

/-- Rings as a transfer on a side finds them, with the claims that are held on the side. -/
inductive Found (side : Side) : List Claim → Ring → Prop where
  /-- After calls one after another. -/
  | called {memory : Memory} {name : RingName} {capacity elementSize : UInt64}
      {producer consumer : SyncMode} {r : Ring}
      (hcreate : create memory name capacity elementSize producer consumer = .ok r)
      (calls : List RingCall) : Found side [] (r.after calls)
  /-- After calls one after another, a split, and calls on the endpoints. -/
  | split {memory : Memory} {name : RingName} {capacity elementSize : UInt64}
      {producer consumer : SyncMode} {r : Ring}
      (hcreate : create memory name capacity elementSize producer consumer = .ok r)
      (calls : List RingCall) {e : Endpoints} (hsplit : (r.after calls).split = .ok e)
      (splitCalls : List SplitCall) : Found side [] (e.run splitCalls).2.ring
  /-- Amid the steps of callers beside each other. -/
  | beside (name : RingName) (shape : Shape) (producer consumer : SyncMode) {callers : Nat}
      {schedule : List Move} (hshared : ∀ m ∈ schedule, m.IsShared)
      (hbound : ((System.create shape callers).run schedule).claimed .producer < 2 ^ 64)
      (hfits : shape.overflow = .checked →
        ((System.create shape callers).run schedule).claimed .producer + shape.capacity < 2 ^ 64) :
      Found side (((System.create shape callers).run schedule).held side)
        ⟨name, shape, producer, consumer, ((System.create shape callers).run schedule).state⟩
  /-- Amid the steps of two endpoints. -/
  | parted (name : RingName) (shape : Shape) {moves : List EndpointMove}
      (hbound : ((System.create shape 2).run
        (moves.filterMap (EndpointMove.move? shape))).claimed .producer < 2 ^ 64)
      (hfits : shape.overflow = .checked → ((System.create shape 2).run
        (moves.filterMap (EndpointMove.move? shape))).claimed .producer + shape.capacity < 2 ^ 64) :
      Found side (((System.create shape 2).run
          (moves.filterMap (EndpointMove.move? shape))).held side)
        ⟨name, shape, .single, .single,
          ((System.create shape 2).run (moves.filterMap (EndpointMove.move? shape))).state⟩

theorem ring_of_split {r : Ring} {e : Endpoints} (h : r.split = .ok e) : e.ring = r := by
  unfold split at h
  split at h
  · split at h
    · cases h
      rfl
    · cases h
  · cases h

theorem holds_run (calls : List SplitCall) : ∀ {e : Endpoints} {q : List (List UInt8)},
    e.ring.Holds q → ∃ q', (e.run calls).2.ring.Holds q' := by
  induction calls with
  | nil => exact fun h => ⟨_, h⟩
  | cons call calls ih =>
      intro e q h
      obtain ⟨q', hq'⟩ := (h.evolves_answerSplit none call).holds
      rw [← (Endpoints.answer_eq h.anyAccess none call).2] at hq'
      exact ih hq'

variable {r : Ring} {side : Side} {claims : List Claim}

/-- Every ring is at rest in a build that does not check, or its cursors are consistent with the
calls under way. -/
theorem Found.cases (h : r.Found side claims) : r.state.Ready r.shape side ∨
    ∃ calls, Consistent r.shape r.state calls ∧ claimsOn side Call.held? calls = claims ∧
      (r.shape.overflow = .checked →
        claimedOn .producer calls + r.shape.capacity < 2 ^ 64) := by
  cases h with
  | called hcreate calls =>
      obtain ⟨shape, -, -, hbuild, rfl⟩ := create_eq_ok hcreate
      obtain ⟨q, hq⟩ :=
        (Holds.evolves_after calls (Represents.initial _ hbuild _ _).holds).holds
      exact .inl (RingState.Holds.ready hq side)
  | split hcreate calls hsplit splitCalls =>
      obtain ⟨shape, -, -, hbuild, rfl⟩ := create_eq_ok hcreate
      obtain ⟨q, hq⟩ :=
        (Holds.evolves_after calls (Represents.initial _ hbuild _ _).holds).holds
      rw [← ring_of_split hsplit] at hq
      obtain ⟨q', hq'⟩ := holds_run splitCalls hq
      exact .inl (RingState.Holds.ready hq' side)
  | @beside name shape producer consumer callers schedule hshared hbound hfits =>
      have hcons := ((System.orderly_create shape callers).run hshared hbound).consistent
      rw [System.shape_run] at hcons
      exact .inr ⟨_, hcons, rfl, hfits⟩
  | @parted name shape moves hbound hfits =>
      obtain ⟨owner, h⟩ := (System.Parted.create shape).run EndpointMove.ofOwner_of_mem hbound
      have hcons := h.consistent
      rw [System.shape_run] at hcons
      exact .inr ⟨_, hcons, rfl, hfits⟩

theorem Found.legible (h : r.Found side claims) : r.state.Legible r.shape side := by
  rcases h.cases with hready | ⟨calls, hcons, -⟩
  · exact hready.legible
  · exact hcons.legible side

theorem Found.fits (h : r.Found side claims) : r.Fits side := by
  rcases h.cases with hready | ⟨calls, hcons, -, hbound⟩
  · intro hchecked
    exact absurd (hready.unchecked.symm.trans hchecked) (by decide)
  · exact hcons.fits hbound side

theorem Found.ready (h : r.Found side claims) (hnone : claims = []) :
    r.state.Ready (r.shape.inBuild .wrapping) side := by
  rcases h.cases with hready | ⟨calls, hcons, hclaims, -⟩
  · exact ⟨rfl, hready.rest, hready.used_le⟩
  · exact hcons.ready (hclaims.trans hnone)

/-- **Nothing else changes.**  Every transfer on a ring in any state, shared or by an endpoint, of
handles or of bytes, is contained: it fails just as its request is wrong, in this order, and else
gives a count; an error or a count of nothing leaves the ring and the buffer as they were; a dequeue
changes no slot, and nothing of the buffer behind the elements it reports; and an enqueue changes no
byte outside the slots of the elements it reports, which follow the occupied ones.  Where others
hold claims on its side, a shared transfer that has something to move gives no answer before they
are published; an endpoint is the only one to claim, and makes one transfer at a time. -/
theorem transfers_contained (h : r.Found side claims) {request : TransferRequest}
    (hside : request.side = side) :
    (∀ call : RingCall, call.request? = some request →
      ∃ outcome, (r.answer call).1.outcome? = some outcome ∧
        (r.Contained request outcome ((r.answer call).1.bytes?.getD request.buffer)
            (r.answer call).2 ∨
          claims ≠ [] ∧ r.HeldUp request outcome)) ∧
    (claims = [] → ∀ e : Endpoints, e.ring = r →
      ∀ call : SplitCall, call.request? = some request →
        ∃ answer outcome, (e.answer call).1 = .ring answer ∧ answer.outcome? = some outcome ∧
          r.Contained request outcome (answer.bytes?.getD request.buffer)
            (e.answer call).2.ring) := by
  subst hside
  have hlegible := h.legible
  have unheld {outcome : Except TransferFault Nat} (hnone : claims = []) :
      ¬ r.HeldUp request outcome := fun hheld => hheld.unpublished (h.ready hnone).rest
  constructor
  · intro call hrequest
    obtain ⟨outcome, houtcome, hdone | hheld⟩ :=
      answered hrequest fun mode => Answers.of_fits
        (answers_shared rfl (hlegible.inBuild .wrapping) mode) hlegible h.fits
    · exact ⟨outcome, houtcome, .inl hdone⟩
    · exact ⟨outcome, houtcome, .inr ⟨fun hnone => unheld hnone hheld, hheld⟩⟩
  · rintro hnone e rfl call hrequest
    obtain ⟨answer, outcome, hanswer, houtcome, hdone⟩ :=
      answered_split hrequest (Answers.of_fits
        (.inl (contained_transferBytes request (h.ready hnone) .owned)) hlegible h.fits)
    exact ⟨answer, outcome, hanswer, houtcome, hdone.resolve_right (unheld hnone)⟩

/-- Three records are stored, and a consumer has claimed two of them and copied one. -/
def amidFetch : List Move :=
  let put : Job := .transfer .producer .exactly (.shared .multi) 3 (Array.replicate 12 7)
  let get : Job := .transfer .consumer .atMost (.shared .single) 2 (Array.replicate 8 0)
  Move.start 0 put :: List.replicate 9 (.step 0) ++ Move.start 1 get :: List.replicate 4 (.step 1)

theorem transfers_contained_amidFetch :
    let s := (System.create System.fourSlots 2).run amidFetch
    let r : Ring := ⟨⟨"amid", by decide⟩, System.fourSlots, .multi, .multi, s.state⟩
    let burst : RingCall := .enqueueElements #[1, 2, 3, 4, 5, 6, 7, 8] 4 .burst
    s.held .consumer = [⟨0, 2⟩] ∧ (r.answer burst).1 = .stored (.ok 1) ∧
      ∀ j, (r.answer burst).2.state.storage.get j ≠ r.state.storage.get j → j / 4 = 3 := by
  intro s r burst
  have hfound : r.Found .producer (s.held .producer) :=
    .beside _ System.fourSlots .multi .multi (by decide) (by decide +kernel)
      fun _ => by decide +kernel
  have hside : (⟨.producer, .atMost, 4, #[1, 2, 3, 4, 5, 6, 7, 8]⟩ : TransferRequest).side =
    .producer := rfl
  obtain ⟨outcome, houtcome, h | ⟨hheld, -⟩⟩ := (transfers_contained hfound hside).1 burst rfl
  case inr => exact absurd (by decide +kernel) hheld
  have hanswer : (r.answer burst).1 = .stored (.ok 1) := by decide +kernel
  rw [hanswer] at houtcome
  refine ⟨by decide +kernel, hanswer, fun j hj => ?_⟩
  obtain ⟨i, hi, hslot⟩ := h.stored rfl 1 (Option.some.inj houtcome).symm j hj
  obtain rfl := Nat.lt_one_iff.mp hi
  have hthree : r.slot (r.count + 0) = 3 := by decide +kernel
  exact hslot.trans hthree

end Ring

end BurstRing
