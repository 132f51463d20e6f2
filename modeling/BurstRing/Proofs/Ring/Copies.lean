import BurstRing.Proofs.Ring.Queue

/-!
# Copies through the wrap

A claim is cut into two runs of slots at most, up to the end of the storage and, if the claim wraps,
from its start.  Each run is a stretch of bytes (`Runs.stretches`), and `Storage.copyIn` and
`Storage.copyOut` copy these stretches.  A call takes the elements one after another, and when it
has taken all of them it has copied just that (`Call.reaches_putRuns`, `Call.reaches_getRuns`),
because elements that follow one another in a run are bytes that follow one another
(`Storage.write_add`, `Storage.read_add`).

To cut a claim takes its length.  A build that checks for overflow has none for a claim that gets to
`2 ^ 64` (`Claim.overruns_iff`), and breaks off before it has copied anything.  In all other cases the
numbers of bytes are words, and none of them runs over (`Claim.map_stretches`): a claim of no more
than the capacity stays within the storage, and the bytes of the whole storage are a word.  So a copy
changes the slots of its claim and no other byte.  Two claims share no slot whose positions are apart
and all among as many successive positions as there are slots (`Claim.slots_ne`), so copies under
them can be exchanged (`Storage.copyIn_comm`).  The main statement is `Ring.copies_through_wrap`.
-/

namespace BurstRing

/-! ### Stretches -/

/-- Bytes that are copied at once: where they start in the storage and in the buffer, and how many
they are. -/
structure Stretch where
  inStorage : UInt64
  inBuffer : UInt64
  length : UInt64
  deriving DecidableEq, Repr

/-- The words as numbers. -/
def Stretch.numbers (t : Stretch) : Nat × Nat × Nat :=
  (t.inStorage.toNat, t.inBuffer.toNat, t.length.toNat)

/-- The bytes of the run up to the end of the storage, and those of the rest. -/
def Runs.stretches (shape : Shape) (runs : Runs) : List Stretch :=
  let width := shape.elementSize.toUInt64
  let first := runs.first.toUInt64 * width
  ⟨runs.index.toUInt64 * width, 0, first⟩ ::
    if runs.rest = 0 then [] else [⟨0, first, runs.rest.toUInt64 * width⟩]

namespace Storage

/-- Stores the elements of `source` in the slots of the runs. -/
def putRuns (shape : Shape) (runs : Runs) (source : Array UInt8) (s : Storage) : Storage :=
  (runs.stretches shape).foldl
    (fun s t => s.write source t.length.toNat t.inStorage.toNat t.inBuffer.toNat) s

/-- Fetches the elements in the slots of the runs into `target`. -/
def getRuns (shape : Shape) (runs : Runs) (target : Array UInt8) (s : Storage) : Array UInt8 :=
  (runs.stretches shape).foldl
    (fun target t => s.read target t.length.toNat t.inStorage.toNat t.inBuffer.toNat) target

/-- Stores the elements of `source` under `claim`. -/
def copyIn (shape : Shape) (claim : Claim) (source : Array UInt8) (s : Storage) :
    Except Panic Storage := do
  .ok (s.putRuns shape (← claim.split shape) source)

/-- Fetches the elements under `claim` into `target`. -/
def copyOut (shape : Shape) (claim : Claim) (target : Array UInt8) (s : Storage) :
    Except Panic (Array UInt8) := do
  .ok (s.getRuns shape (← claim.split shape) target)

end Storage

/-! ### Lengths -/

namespace Claim

variable {shape : Shape} {overflow : Overflow} {c : Claim}

theorem split_of_overruns (h : c.Overruns shape.overflow) : c.split shape = .error .subtraction := by
  rw [split, length_of_overruns h]
  rfl

theorem split_of_not_overruns (h : ¬ c.Overruns shape.overflow) :
    c.split shape = .ok (c.runs shape) := by
  rw [split, length_of_not_overruns h]
  rfl

end Claim

namespace Storage

variable {shape : Shape} {claim : Claim}

theorem copyIn_of_overruns (h : claim.Overruns shape.overflow) (source : Array UInt8)
    (s : Storage) : s.copyIn shape claim source = .error .subtraction := by
  rw [copyIn, Claim.split_of_overruns h]
  rfl

theorem copyIn_of_fits (h : ¬ claim.Overruns shape.overflow) (source : Array UInt8)
    (s : Storage) :
    s.copyIn shape claim source = .ok (s.putRuns shape (claim.runs shape) source) := by
  rw [copyIn, Claim.split_of_not_overruns h]
  rfl

theorem copyOut_of_overruns (h : claim.Overruns shape.overflow) (target : Array UInt8)
    (s : Storage) : s.copyOut shape claim target = .error .subtraction := by
  rw [copyOut, Claim.split_of_overruns h]
  rfl

theorem copyOut_of_fits (h : ¬ claim.Overruns shape.overflow) (target : Array UInt8)
    (s : Storage) :
    s.copyOut shape claim target = .ok (s.getRuns shape (claim.runs shape) target) := by
  rw [copyOut, Claim.split_of_not_overruns h]
  rfl

end Storage

/-! ### Bounds -/

/-- The bytes of some slots are a word. -/
theorem Shape.toNat_mul_elementSize (shape : Shape) {n : Nat} (h : n ≤ shape.capacity) :
    (n.toUInt64 * shape.elementSize.toUInt64).toNat = n * shape.elementSize := by
  have hbytes := shape.bytes_lt
  have hle : n * shape.elementSize ≤ shape.capacity * shape.elementSize :=
    Nat.mul_le_mul_right _ h
  have hn : n ≤ n * shape.elementSize := Nat.le_mul_of_pos_right n shape.elementSize_pos'
  have hwidth : shape.elementSize ≤ shape.capacity * shape.elementSize :=
    Nat.le_mul_of_pos_left _ shape.capacity_pos
  rw [UInt64.toNat_mul, UInt64.toNat_ofNat_of_lt' (by omega), UInt64.toNat_ofNat_of_lt' (by omega)]
  exact Nat.mod_eq_of_lt (hle.trans_lt hbytes)

namespace Claim

variable {shape : Shape} {c : Claim}

/-- The runs are what is claimed, the first of them stays within the storage, and only one that gets
to its end leaves a rest. -/
theorem runs_bounds (shape : Shape) (c : Claim) :
    (c.runs shape).index < shape.capacity ∧
      (c.runs shape).index + (c.runs shape).first ≤ shape.capacity ∧
      (c.runs shape).first + (c.runs shape).rest = c.len.toNat ∧
      ((c.runs shape).rest ≠ 0 →
        (c.runs shape).index + (c.runs shape).first = shape.capacity) := by
  have hindex := Nat.mod_lt c.start.toNat shape.capacity_pos
  simp only [runs, Runs.cut, shape.toNat_and_mask]
  omega

/-- No word runs over. -/
theorem map_stretches (h : c.len.toNat ≤ shape.capacity) :
    ((c.runs shape).stretches shape).map Stretch.numbers =
      ((c.runs shape).index * shape.elementSize, 0, (c.runs shape).first * shape.elementSize) ::
        if (c.runs shape).rest = 0 then []
        else [(0, (c.runs shape).first * shape.elementSize,
          (c.runs shape).rest * shape.elementSize)] := by
  obtain ⟨hindex, -, hsum, -⟩ := runs_bounds shape c
  have hindexBytes := shape.toNat_mul_elementSize (Nat.le_of_lt hindex)
  have hfirstBytes := shape.toNat_mul_elementSize (n := (c.runs shape).first) (by omega)
  have hrestBytes := shape.toNat_mul_elementSize (n := (c.runs shape).rest) (by omega)
  rw [Runs.stretches, List.map_cons, Stretch.numbers, hindexBytes, hfirstBytes]
  split
  · rfl
  · rw [List.map_cons, Stretch.numbers, hfirstBytes, hrestBytes]
    rfl

/-- A stretch lies within the storage, and within a buffer for what is claimed. -/
theorem stretch_bounds (h : c.len.toNat ≤ shape.capacity) {t : Stretch}
    (ht : t ∈ (c.runs shape).stretches shape) :
    t.inStorage.toNat + t.length.toNat ≤ shape.capacity * shape.elementSize ∧
      t.inBuffer.toNat + t.length.toNat ≤ c.len.toNat * shape.elementSize := by
  obtain ⟨-, hfirst, hsum, -⟩ := runs_bounds shape c
  have hmem := List.mem_map_of_mem (f := Stretch.numbers) ht
  rw [map_stretches h, List.mem_cons] at hmem
  rcases hmem with hmem | hmem
  · obtain ⟨hstorage, hbuffer⟩ := Prod.mk.inj hmem
    obtain ⟨hbuffer, hlength⟩ := Prod.mk.inj hbuffer
    rw [hstorage, hbuffer, hlength, ← Nat.add_mul, Nat.zero_add]
    exact ⟨Nat.mul_le_mul_right _ hfirst, Nat.mul_le_mul_right _ (by omega)⟩
  · split at hmem
    · cases hmem
    · obtain ⟨hstorage, hbuffer⟩ := Prod.mk.inj (List.mem_singleton.mp hmem)
      obtain ⟨hbuffer, hlength⟩ := Prod.mk.inj hbuffer
      rw [hstorage, hbuffer, hlength, ← Nat.add_mul, hsum, Nat.zero_add]
      exact ⟨Nat.mul_le_mul_right _ (by omega), Nat.le_refl _⟩

/-- What is done with one stretch after another is done with the two runs, if nothing is done with
no bytes. -/
theorem foldl_stretches {β : Type} (h : c.len.toNat ≤ shape.capacity)
    (f : β → (pos offset length : Nat) → β) (hnone : ∀ b pos offset, f b pos offset 0 = b)
    (b : β) :
    ((c.runs shape).stretches shape).foldl
        (fun b t => f b t.inStorage.toNat t.inBuffer.toNat t.length.toNat) b =
      f (f b ((c.runs shape).index * shape.elementSize) 0
          ((c.runs shape).first * shape.elementSize))
        0 ((c.runs shape).first * shape.elementSize)
        ((c.runs shape).rest * shape.elementSize) := by
  have hnumbers : ((c.runs shape).stretches shape).foldl
        (fun b t => f b t.inStorage.toNat t.inBuffer.toNat t.length.toNat) b =
      (((c.runs shape).stretches shape).map Stretch.numbers).foldl
        (fun b t => f b t.1 t.2.1 t.2.2) b := by
    rw [List.foldl_map]
    rfl
  rw [hnumbers, map_stretches h, List.foldl_cons]
  split
  · rename_i hrest
    rw [hrest, Nat.zero_mul, hnone]
    rfl
  · rfl

end Claim

/-! ### Stretches and elements -/

namespace Storage

/-- Two stretches that follow one another are one. -/
theorem write_add (source : Array UInt8) (m n : Nat) : ∀ (s : Storage) (pos offset : Nat),
    s.write source (m + n) pos offset =
      (s.write source m pos offset).write source n (pos + m) (offset + m) := by
  induction m with
  | zero => intro s pos offset; rw [Nat.zero_add]; rfl
  | succ m ih =>
      intro s pos offset
      rw [Nat.succ_add, write, write, ih, Nat.add_right_comm pos, Nat.add_right_comm offset]
      rfl

theorem read_add (s : Storage) (m n : Nat) : ∀ (target : Array UInt8) (pos offset : Nat),
    s.read target (m + n) pos offset =
      s.read (s.read target m pos offset) n (pos + m) (offset + m) := by
  induction m with
  | zero => intro target pos offset; rw [Nat.zero_add]; rfl
  | succ m ih =>
      intro target pos offset
      rw [Nat.succ_add, read, read, ih, Nat.add_right_comm pos, Nat.add_right_comm offset]
      rfl

variable {shape : Shape} {claim : Claim}

theorem putRuns_eq (h : claim.len.toNat ≤ shape.capacity) (source : Array UInt8) (s : Storage) :
    s.putRuns shape (claim.runs shape) source =
      (s.write source ((claim.runs shape).first * shape.elementSize)
        ((claim.runs shape).index * shape.elementSize) 0).write source
          ((claim.runs shape).rest * shape.elementSize) 0
          ((claim.runs shape).first * shape.elementSize) :=
  Claim.foldl_stretches h (fun (s : Storage) pos offset n => s.write source n pos offset)
    (fun _ _ _ => rfl) s

theorem getRuns_eq (h : claim.len.toNat ≤ shape.capacity) (target : Array UInt8) (s : Storage) :
    s.getRuns shape (claim.runs shape) target =
      s.read (s.read target ((claim.runs shape).first * shape.elementSize)
        ((claim.runs shape).index * shape.elementSize) 0)
          ((claim.runs shape).rest * shape.elementSize) 0
          ((claim.runs shape).first * shape.elementSize) :=
  Claim.foldl_stretches h (fun target pos offset n => s.read target n pos offset)
    (fun _ _ _ => rfl) target

end Storage

namespace Runs

/-- The `m` elements from `k` on lie in successive slots from `p` on. -/
def Successive (r : Runs) (m k p : Nat) : Prop := ∀ i < m, r.slot (k + i) = p + i

namespace Successive

variable {r : Runs} {m k p : Nat}

theorem slot_eq (h : r.Successive (m + 1) k p) : r.slot k = p := h 0 (Nat.succ_pos m)

theorem next (h : r.Successive (m + 1) k p) : r.Successive m (k + 1) (p + 1) := by
  intro i hi
  rw [Nat.add_assoc, Nat.add_comm 1 i, h (i + 1) (Nat.succ_lt_succ hi), Nat.add_assoc,
    Nat.add_comm 1 i]

end Successive

theorem successive_first (r : Runs) : r.Successive r.first 0 r.index := by
  intro i hi
  rw [slot, Nat.zero_add, if_pos hi]

theorem successive_rest (r : Runs) : r.Successive r.rest r.first 0 := by
  intro i _
  rw [slot, if_neg (Nat.not_lt.mpr (Nat.le_add_right _ _)), Nat.add_sub_cancel_left, Nat.zero_add]

end Runs

namespace Call

variable {shape : Shape} {claim : Claim}

/-- Elements that lie in successive slots are stored as one stretch. -/
theorem reaches_write (hfits : ¬ claim.Overruns shape.overflow) (c : Call)
    (hside : c.side = .producer) (m : Nat) :
    ∀ (k p : Nat) (s : RingState), k + m ≤ claim.len.toNat →
      (claim.runs shape).Successive m k p →
      Reaches shape m s { c with phase := .copy claim k }
        { s with
          storage := s.storage.write c.buffer (m * shape.elementSize) (p * shape.elementSize)
            (k * shape.elementSize) }
        { c with phase := .copy claim (k + m) } := by
  induction m with
  | zero =>
      intro k p s _ _
      rw [Nat.zero_mul]
      exact .refl s _
  | succ m ih =>
      intro k p s hk hslots
      have hput : s.storage.putElement shape claim c.buffer k = s.storage.write c.buffer
          shape.elementSize (p * shape.elementSize) (k * shape.elementSize) := by
        rw [Storage.putElement, hslots.slot_eq]
      have hrest := ih (k + 1) (p + 1)
        { s with storage := s.storage.putElement shape claim c.buffer k } (by omega) hslots.next
      rw [hput, Nat.succ_mul p, Nat.succ_mul k, ← Storage.write_add] at hrest
      rw [Nat.succ_mul m, Nat.add_comm (m * _), Nat.add_comm m, ← Nat.add_assoc]
      refine .trans (.one rfl ?_) hrest
      simp only [step, Claim.length_of_not_overruns hfits,
        if_pos (by omega : k < claim.len.toNat), hside, hput]

/-- And they are fetched as one stretch. -/
theorem reaches_read (hfits : ¬ claim.Overruns shape.overflow) (c : Call)
    (hside : c.side = .consumer) (s : RingState) (m : Nat) :
    ∀ (k p : Nat) (target : Array UInt8), k + m ≤ claim.len.toNat →
      (claim.runs shape).Successive m k p →
      Reaches shape m s { c with buffer := target, phase := .copy claim k } s
        { c with
          buffer := s.storage.read target (m * shape.elementSize) (p * shape.elementSize)
            (k * shape.elementSize)
          phase := .copy claim (k + m) } := by
  induction m with
  | zero =>
      intro k p target _ _
      rw [Nat.zero_mul]
      exact .refl s _
  | succ m ih =>
      intro k p target hk hslots
      have hget : s.storage.getElement shape claim target k = s.storage.read target
          shape.elementSize (p * shape.elementSize) (k * shape.elementSize) := by
        rw [Storage.getElement, hslots.slot_eq]
      have hrest := ih (k + 1) (p + 1) (s.storage.getElement shape claim target k) (by omega)
        hslots.next
      rw [hget, Nat.succ_mul p, Nat.succ_mul k, ← Storage.read_add] at hrest
      rw [Nat.succ_mul m, Nat.add_comm (m * _), Nat.add_comm m, ← Nat.add_assoc]
      refine .trans (.one rfl ?_) hrest
      simp only [step, Claim.length_of_not_overruns hfits,
        if_pos (by omega : k < claim.len.toNat), hside, hget]

/-- A call that stores all its elements stores the runs. -/
theorem reaches_putRuns (hfits : ¬ claim.Overruns shape.overflow) (c : Call)
    (hside : c.side = .producer) (hle : claim.len.toNat ≤ shape.capacity) (s : RingState) :
    Reaches shape claim.len.toNat s { c with phase := .copy claim 0 }
      { s with storage := s.storage.putRuns shape (claim.runs shape) c.buffer }
      { c with phase := .copy claim claim.len.toNat } := by
  obtain ⟨-, -, hsum, -⟩ := claim.runs_bounds shape
  have hfirst := reaches_write hfits c hside _ 0 _ s (by omega) (claim.runs shape).successive_first
  rw [Nat.zero_mul, Nat.zero_add] at hfirst
  have hrest := reaches_write hfits c hside _ _ _
    { s with
      storage := s.storage.write c.buffer ((claim.runs shape).first * shape.elementSize)
        ((claim.runs shape).index * shape.elementSize) 0 }
    (Nat.le_of_eq hsum) (claim.runs shape).successive_rest
  have hboth := hfirst.trans hrest
  rw [hsum, Nat.zero_mul, ← Storage.putRuns_eq hle] at hboth
  exact hboth

/-- A call that fetches all its elements fetches the runs. -/
theorem reaches_getRuns (hfits : ¬ claim.Overruns shape.overflow) (c : Call)
    (hside : c.side = .consumer) (hle : claim.len.toNat ≤ shape.capacity) (s : RingState) :
    Reaches shape claim.len.toNat s { c with phase := .copy claim 0 } s
      { c with
        buffer := s.storage.getRuns shape (claim.runs shape) c.buffer
        phase := .copy claim claim.len.toNat } := by
  obtain ⟨-, -, hsum, -⟩ := claim.runs_bounds shape
  have hfirst := reaches_read hfits c hside s _ 0 _ c.buffer (by omega)
    (claim.runs shape).successive_first
  rw [Nat.zero_mul, Nat.zero_add] at hfirst
  have hrest := reaches_read hfits c hside s _ _ _
    (s.storage.read c.buffer ((claim.runs shape).first * shape.elementSize)
      ((claim.runs shape).index * shape.elementSize) 0)
    (Nat.le_of_eq hsum) (claim.runs shape).successive_rest
  have hboth := hfirst.trans hrest
  rw [hsum, Nat.zero_mul, ← Storage.getRuns_eq hle] at hboth
  exact hboth

end Call

/-! ### Records -/

namespace Storage

variable {shape : Shape} {claim : Claim}

/-- The element `i` of the source gets into the slot of its position, and no other slot changes. -/
theorem recordAt_putRuns (hfits : ¬ claim.Overruns shape.overflow)
    (hle : claim.len.toNat ≤ shape.capacity) (source : Array UInt8) (s : Storage) :
    (∀ i < claim.len.toNat,
      recordAt shape.elementSize (s.putRuns shape (claim.runs shape) source).bytes
          ((claim.start.toNat + i) % shape.capacity) =
        recordAt shape.elementSize source i) ∧
      ∀ j, (∀ i < claim.len.toNat, j ≠ (claim.start.toNat + i) % shape.capacity) →
        recordAt shape.elementSize (s.putRuns shape (claim.runs shape) source).bytes j =
          recordAt shape.elementSize s.bytes j := by
  -- A call on this storage stores the runs.
  let c : Call := .begin .producer .exactly .owned claim.len source
  let state : RingState := { RingState.startingAt 0 with storage := s }
  obtain ⟨storage, hreach, hin, hout⟩ :=
    Call.reaches_stored hfits c rfl hle claim.len.toNat 0 state (Nat.zero_add _)
  obtain rfl : s.putRuns shape (claim.runs shape) source = storage :=
    congrArg (fun run : RingState × Call => run.1.storage)
      ((Call.reaches_putRuns hfits c rfl hle state).unique hreach)
  exact ⟨fun i hi => hin i (Nat.zero_le i) hi, fun j hj => hout j fun i _ hi => hj i hi⟩

/-- The record `i` of the target comes from the slot of its position. -/
theorem recordAt_getRuns (hfits : ¬ claim.Overruns shape.overflow)
    (hle : claim.len.toNat ≤ shape.capacity) {target : Array UInt8}
    (hsize : claim.len.toNat * shape.elementSize ≤ target.size) (s : Storage) :
    (s.getRuns shape (claim.runs shape) target).size = target.size ∧
      ∀ i < claim.len.toNat,
        recordAt shape.elementSize (s.getRuns shape (claim.runs shape) target) i =
          recordAt shape.elementSize s.bytes ((claim.start.toNat + i) % shape.capacity) := by
  let c : Call := .begin .consumer .exactly .owned claim.len target
  let state : RingState := { RingState.startingAt 0 with storage := s }
  obtain ⟨target', hreach, hsize', hin, -⟩ := Call.reaches_fetched hfits c rfl hle state
    claim.len.toNat 0 target (Nat.zero_add _) hsize
  obtain rfl : s.getRuns shape (claim.runs shape) target = target' :=
    congrArg (fun run : RingState × Call => run.2.buffer)
      ((Call.reaches_getRuns hfits c rfl hle state).unique hreach)
  exact ⟨hsize', fun i hi => hin i (Nat.zero_le i) hi⟩

/-- What has been stored comes out again. -/
theorem getRuns_putRuns (hfits : ¬ claim.Overruns shape.overflow)
    (hle : claim.len.toNat ≤ shape.capacity) {source target : Array UInt8}
    (hsource : source.size = claim.len.toNat * shape.elementSize)
    (htarget : target.size = source.size) (s : Storage) :
    (s.putRuns shape (claim.runs shape) source).getRuns shape (claim.runs shape) target =
      source := by
  obtain ⟨hin, -⟩ := recordAt_putRuns hfits hle source s
  obtain ⟨hsize, hout⟩ := recordAt_getRuns hfits hle
    (Nat.le_of_eq (hsource.symm.trans htarget.symm)) (s.putRuns shape (claim.runs shape) source)
  exact eq_of_recordAt_eq shape.elementSize_pos' ((hsize.trans htarget).trans hsource) hsource
    fun i hi => (hout i hi).trans (hin i hi)

/-! ### Copies that can be exchanged -/

theorem size_set (s : Storage) (i : Nat) (b : UInt8) :
    (s.set i b).bytes.size = max s.bytes.size (i + 1) := by
  unfold set
  split
  · rw [Array.size_setIfInBounds]
    omega
  · rw [Array.size_push, Array.size_append, Array.size_replicate]
    omega

/-- Only what has been written is kept. -/
theorem size_write (source : Array UInt8) (n : Nat) : ∀ (s : Storage) (pos offset : Nat),
    (s.write source n pos offset).bytes.size =
      if n = 0 then s.bytes.size else max s.bytes.size (pos + n) := by
  induction n with
  | zero => intro s pos offset; rfl
  | succ n ih =>
      intro s pos offset
      rw [write, ih, size_set, if_neg (Nat.succ_ne_zero n)]
      split <;> omega

theorem size_putRuns (hpos : 0 < claim.len.toNat) (hle : claim.len.toNat ≤ shape.capacity)
    (source : Array UInt8) (s : Storage) :
    (s.putRuns shape (claim.runs shape) source).bytes.size = max s.bytes.size
      (((claim.runs shape).index + (claim.runs shape).first) * shape.elementSize) := by
  obtain ⟨hindex, hfirst, hsum, hrest⟩ := claim.runs_bounds shape
  have hsome : (claim.runs shape).first * shape.elementSize ≠ 0 :=
    Nat.mul_ne_zero (by omega) shape.elementSize_pos
  rw [putRuns_eq hle, size_write, size_write, if_neg hsome, Nat.zero_add, ← Nat.add_mul]
  split
  · rfl
  · rename_i hmore
    -- The first run gets to the end of the storage, so the rest lies before its end.
    have hwrapped := hrest (Nat.ne_zero_of_mul_ne_zero_left hmore)
    have hbefore : (claim.runs shape).rest * shape.elementSize ≤
        ((claim.runs shape).index + (claim.runs shape).first) * shape.elementSize :=
      Nat.mul_le_mul_right _ (by omega)
    omega

/-- Storages that keep as many bytes and have the same records are equal. -/
theorem eq_of_forall_recordAt (shape : Shape) {a b : Storage} (hsize : a.bytes.size = b.bytes.size)
    (h : ∀ j, recordAt shape.elementSize a.bytes j = recordAt shape.elementSize b.bytes j) :
    a = b :=
  congrArg Storage.mk (eq_of_forall_recordAt_eq shape.elementSize_pos' hsize h)

/-- The elements of claims that share no slot can be stored in either order. -/
theorem putRuns_comm {other : Claim} (hfits : ¬ claim.Overruns shape.overflow)
    (hfits' : ¬ other.Overruns shape.overflow) (hpos : 0 < claim.len.toNat)
    (hle : claim.len.toNat ≤ shape.capacity) (hpos' : 0 < other.len.toNat)
    (hle' : other.len.toNat ≤ shape.capacity)
    (hslots : ∀ i < claim.len.toNat, ∀ j < other.len.toNat,
      (claim.start.toNat + i) % shape.capacity ≠ (other.start.toNat + j) % shape.capacity)
    (source source' : Array UInt8) (s : Storage) :
    (s.putRuns shape (claim.runs shape) source).putRuns shape (other.runs shape) source' =
      (s.putRuns shape (other.runs shape) source').putRuns shape (claim.runs shape) source := by
  refine eq_of_forall_recordAt shape ?_ fun slot => ?_
  · rw [size_putRuns hpos' hle', size_putRuns hpos hle, size_putRuns hpos hle,
      size_putRuns hpos' hle', Nat.max_right_comm]
  have hclaim (s : Storage) := recordAt_putRuns hfits hle source s
  have hother (s : Storage) := recordAt_putRuns hfits' hle' source' s
  by_cases hin : ∃ i < claim.len.toNat, slot = (claim.start.toNat + i) % shape.capacity
  · obtain ⟨i, hi, rfl⟩ := hin
    rw [(hother _).2 _ (hslots i hi), (hclaim _).1 i hi, (hclaim _).1 i hi]
  · have hout : ∀ i < claim.len.toNat, slot ≠ (claim.start.toNat + i) % shape.capacity :=
      fun i hi heq => hin ⟨i, hi, heq⟩
    by_cases hin' : ∃ j < other.len.toNat, slot = (other.start.toNat + j) % shape.capacity
    · obtain ⟨j, hj, rfl⟩ := hin'
      rw [(hother _).1 j hj, (hclaim _).2 _ hout, (hother _).1 j hj]
    · have hout' : ∀ j < other.len.toNat, slot ≠ (other.start.toNat + j) % shape.capacity :=
        fun j hj heq => hin' ⟨j, hj, heq⟩
      rw [(hother _).2 _ hout', (hclaim _).2 _ hout, (hclaim _).2 _ hout, (hother _).2 _ hout']

/-- In a build that checks, a claim that gets to `2 ^ 64` breaks either order. -/
theorem copyIn_comm {other : Claim} (hpos : 0 < claim.len.toNat)
    (hle : claim.len.toNat ≤ shape.capacity) (hpos' : 0 < other.len.toNat)
    (hle' : other.len.toNat ≤ shape.capacity)
    (hslots : ∀ i < claim.len.toNat, ∀ j < other.len.toNat,
      (claim.start.toNat + i) % shape.capacity ≠ (other.start.toNat + j) % shape.capacity)
    (source source' : Array UInt8) (s : Storage) :
    (s.copyIn shape claim source >>= (·.copyIn shape other source')) =
      (s.copyIn shape other source' >>= (·.copyIn shape claim source)) := by
  by_cases hover : claim.Overruns shape.overflow
  · by_cases hover' : other.Overruns shape.overflow
    · simp only [copyIn_of_overruns hover, copyIn_of_overruns hover']
    · simp only [copyIn_of_overruns hover, copyIn_of_fits hover']
      rfl
  · by_cases hover' : other.Overruns shape.overflow
    · simp only [copyIn_of_fits hover, copyIn_of_overruns hover']
      rfl
    · simp only [copyIn_of_fits hover, copyIn_of_fits hover']
      exact congrArg Except.ok
        (putRuns_comm hover hover' hpos hle hpos' hle' hslots source source' s)

end Storage

namespace Claim

/-- The position of element `i`. -/
def position (c : Claim) (i : Nat) : UInt64 := c.start + i.toUInt64

/-- All positions of the claim are among the `n` positions from `a` on. -/
def Within (a : UInt64) (n : Nat) (c : Claim) : Prop :=
  ∀ i < c.len.toNat, (c.position i - a).toNat < n

/-- No position is in both claims. -/
def Separate (c d : Claim) : Prop :=
  ∀ i < c.len.toNat, ∀ j < d.len.toNat, c.position i ≠ d.position j

instance (a : UInt64) (n : Nat) (c : Claim) : Decidable (c.Within a n) :=
  inferInstanceAs (Decidable (∀ i < c.len.toNat, (c.position i - a).toNat < n))

instance (c d : Claim) : Decidable (c.Separate d) :=
  inferInstanceAs
    (Decidable (∀ i < c.len.toNat, ∀ j < d.len.toNat, c.position i ≠ d.position j))

/-- An element lies in the slot of its position. -/
theorem position_mod (shape : Shape) (c : Claim) (i : Nat) :
    (c.position i).toNat % shape.capacity = (c.start.toNat + i) % shape.capacity := by
  have hword : i.toUInt64.toNat = i % 2 ^ 64 := UInt64.toNat_ofNat'
  rw [position, UInt64.toNat_add, hword, shape.mod_word_mod, Nat.add_mod, shape.mod_word_mod,
    ← Nat.add_mod]

/-- Within as many successive positions as there are slots, claims that are separate share no
slot. -/
theorem slots_ne {shape : Shape} {c d : Claim} {a : UInt64} (hc : c.Within a shape.capacity)
    (hd : d.Within a shape.capacity) (h : c.Separate d) :
    ∀ i < c.len.toNat, ∀ j < d.len.toNat,
      (c.start.toNat + i) % shape.capacity ≠ (d.start.toNat + j) % shape.capacity := by
  intro i hi j hj heq
  have hslot (p : UInt64) :
      p.toNat % shape.capacity = (a.toNat + (p - a).toNat) % shape.capacity := by
    rw [← shape.mod_word_mod (a.toNat + _), ← UInt64.toNat_add, UInt64.add_comm,
      UInt64.sub_add_cancel]
  rw [← position_mod, ← position_mod, hslot, hslot (d.position j)] at heq
  have hsame := Shape.eq_of_mod_eq (Nat.le_add_right a.toNat _)
    (Nat.add_lt_add_left (hc i hi) _) (Nat.le_add_right a.toNat _)
    (Nat.add_lt_add_left (hd j hj) _) heq
  have hword : c.position i - a = d.position j - a :=
    UInt64.toNat_inj.mp (Nat.add_left_cancel hsame)
  refine h i hi j hj ?_
  rw [← UInt64.sub_add_cancel (c.position i) a, hword, UInt64.sub_add_cancel]

end Claim

/-! ### Calls -/

namespace Call

variable {shape : Shape} {claim : Claim} {c : Call}

/-- A call whose claim has no length in the build breaks. -/
theorem step_of_overruns {copied : Nat} (hover : claim.Overruns shape.overflow)
    (hphase : c.phase = .copy claim copied) (s : RingState) :
    c.step shape s = (s, { c with phase := .broken .subtraction (some claim) }) := by
  simp only [step, hphase, Claim.length_of_overruns hover]

/-- What is left of a call that has all its elements is to publish them. -/
theorem reaches_publish (hfits : ¬ claim.Overruns shape.overflow) (s : RingState) (c : Call) :
    Reaches shape 1 s { c with phase := .copy claim claim.len.toNat } s
      { c with phase := .publish claim } := by
  refine .one rfl ?_
  simp only [step, Claim.length_of_not_overruns hfits, if_neg (Nat.lt_irrefl _)]

/-- Between its exchange and its publication, a producer that is alone copies in. -/
theorem runAlone_copyIn (hle : claim.len.toNat ≤ shape.capacity)
    (hphase : c.phase = .copy claim 0) (hside : c.side = .producer) (s : RingState) :
    c.runAlone shape (claim.len.toNat + 1) s =
      match s.storage.copyIn shape claim c.buffer with
      | .ok storage => ({ s with storage := storage }, { c with phase := .publish claim })
      | .error panic => (s, { c with phase := .broken panic (some claim) }) := by
  by_cases hover : claim.Overruns shape.overflow
  · rw [Storage.copyIn_of_overruns hover]
    have hbreak : Reaches shape 1 s c s { c with phase := .broken .subtraction (some claim) } :=
      .one (by rw [isOver, hphase]) (step_of_overruns hover hphase s)
    exact hbreak.runAlone_eq rfl (Nat.le_add_left 1 _)
  · rw [Storage.copyIn_of_fits hover]
    have h := (reaches_putRuns hover c hside hle s).trans (reaches_publish hover _ c) 0
    rw [Nat.zero_add, ← hphase] at h
    exact h

/-- And a consumer copies out, and leaves the ring as it is. -/
theorem runAlone_copyOut (hle : claim.len.toNat ≤ shape.capacity)
    (hphase : c.phase = .copy claim 0) (hside : c.side = .consumer) (s : RingState) :
    c.runAlone shape (claim.len.toNat + 1) s =
      match s.storage.copyOut shape claim c.buffer with
      | .ok buffer => (s, { c with buffer := buffer, phase := .publish claim })
      | .error panic => (s, { c with phase := .broken panic (some claim) }) := by
  by_cases hover : claim.Overruns shape.overflow
  · rw [Storage.copyOut_of_overruns hover]
    have hbreak : Reaches shape 1 s c s { c with phase := .broken .subtraction (some claim) } :=
      .one (by rw [isOver, hphase]) (step_of_overruns hover hphase s)
    exact hbreak.runAlone_eq rfl (Nat.le_add_left 1 _)
  · rw [Storage.copyOut_of_fits hover]
    have h := (reaches_getRuns hover c hside hle s).trans (reaches_publish hover s
      { c with buffer := s.storage.getRuns shape (claim.runs shape) c.buffer }) 0
    rw [Nat.zero_add, ← hphase] at h
    exact h

end Call

namespace Ring

/-- **Copies up to `2 ^ 64`, and through the wrap where nothing checks for it.**  Take a claim of up
to all slots of a ring that has been created, wherever it starts.  A call that copies its elements
copies at most two stretches of bytes; no number of bytes runs over a word, and the stretches lie
within the storage and within a buffer of just the elements claimed.  If the claim gets to `2 ^ 64`
and the build checks for that, then the copy panics before it begins.  Else copying in puts each
element into the slot of its position and changes no other byte, copying out takes each element from
there and changes nothing in the ring, and what was copied in comes out again.  For claims that are
separate within as many positions as there are slots, it does not matter which of them is copied in
first. -/
theorem copies_through_wrap {memory : Memory} {name : RingName} {capacity elementSize : UInt64}
    {producer consumer : SyncMode} {r : Ring}
    (hcreate : create memory name capacity elementSize producer consumer = .ok r)
    (overflow : Overflow) {claim : Claim} (hpos : 0 < claim.len.toNat)
    (hle : claim.len.toNat ≤ capacity.toNat) {buffer : Array UInt8}
    (hsize : buffer.size = claim.len.toNat * elementSize.toNat) (s : Storage) :
    let shape := r.shape.inBuild overflow
    let n := claim.len.toNat
    let width := elementSize.toNat
    let slot := fun i => (claim.start.toNat + i) % capacity.toNat
    let runs := claim.runs shape
    -- What a call does.
    (∀ (state : RingState) (c : Call), c.phase = .copy claim 0 → c.buffer = buffer →
      (c.side = .producer → c.runAlone shape (n + 1) state =
        match state.storage.copyIn shape claim buffer with
        | .ok storage => ({ state with storage := storage }, { c with phase := .publish claim })
        | .error panic => (state, { c with phase := .broken panic (some claim) })) ∧
      (c.side = .consumer → c.runAlone shape (n + 1) state =
        match state.storage.copyOut shape claim buffer with
        | .ok out => (state, { c with buffer := out, phase := .publish claim })
        | .error panic => (state, { c with phase := .broken panic (some claim) }))) ∧
    -- Where the bytes are.
    (runs.first + runs.rest = n ∧ runs.index + runs.first ≤ capacity.toNat) ∧
    (runs.stretches shape).map Stretch.numbers =
      (runs.index * width, 0, runs.first * width) ::
        (if runs.rest = 0 then [] else [(0, runs.first * width, runs.rest * width)]) ∧
    (∀ t ∈ runs.stretches shape,
      t.inStorage.toNat + t.length.toNat ≤ capacity.toNat * width ∧
        t.inBuffer.toNat + t.length.toNat ≤ buffer.size) ∧
    capacity.toNat * width < 2 ^ 64 ∧
    -- No copy at all.
    (overflow = .checked ∧ 2 ^ 64 ≤ claim.start.toNat + n →
      s.copyIn shape claim buffer = .error .subtraction ∧
        s.copyOut shape claim buffer = .error .subtraction) ∧
    -- In, out, and out again.
    (overflow = .wrapping ∨ claim.start.toNat + n < 2 ^ 64 →
      ∃ stored fetched, s.copyIn shape claim buffer = .ok stored ∧
        s.copyOut shape claim buffer = .ok fetched ∧
        (∀ i < n, recordAt width stored.bytes (slot i) = recordAt width buffer i) ∧
        (∀ j, (∀ i < n, j / width ≠ slot i) → stored.get j = s.get j) ∧
        fetched.size = buffer.size ∧
        (∀ i < n, recordAt width fetched i = recordAt width s.bytes (slot i)) ∧
        ∀ target : Array UInt8, target.size = buffer.size →
          stored.copyOut shape claim target = .ok buffer) ∧
    -- In either order.
    ∀ (other : Claim) (source : Array UInt8), 0 < other.len.toNat →
      other.len.toNat ≤ capacity.toNat →
      (∃ a, claim.Within a capacity.toNat ∧ other.Within a capacity.toNat) →
      claim.Separate other →
        (s.copyIn shape claim buffer >>= (·.copyIn shape other source)) =
          (s.copyIn shape other source >>= (·.copyIn shape claim buffer)) := by
  obtain ⟨shape', hcapacity, hwidth, -, rfl⟩ := create_eq_ok hcreate
  rw [← hcapacity] at hle ⊢
  rw [← hwidth] at hsize ⊢
  intro shape n width slot runs
  replace hle : claim.len.toNat ≤ shape.capacity := hle
  have hoverruns : claim.Overruns shape.overflow ↔
      overflow = .checked ∧ 2 ^ 64 ≤ claim.start.toNat + n := Claim.overruns_iff
  obtain ⟨-, hfirst, hsum, -⟩ := claim.runs_bounds shape
  refine ⟨?_, ⟨hsum, hfirst⟩, Claim.map_stretches hle, ?_, shape.bytes_lt, ?_, ?_,
    ?_⟩
  · rintro state c hphase rfl
    exact ⟨fun hside => Call.runAlone_copyIn hle hphase hside state,
      fun hside => Call.runAlone_copyOut hle hphase hside state⟩
  · intro t ht
    rw [hsize]
    exact Claim.stretch_bounds hle ht
  · intro hreaches
    have hover := hoverruns.mpr hreaches
    exact ⟨Storage.copyIn_of_overruns hover buffer s, Storage.copyOut_of_overruns hover buffer s⟩
  · intro hbelow
    have hfits : ¬ claim.Overruns shape.overflow := by
      rw [hoverruns]
      rintro ⟨hchecked, hreaches⟩
      rcases hbelow with hwrapping | hlt
      · cases hchecked.symm.trans hwrapping
      · exact absurd hlt (Nat.not_lt.mpr hreaches)
    obtain ⟨hin, hkept⟩ := Storage.recordAt_putRuns hfits hle buffer s
    obtain ⟨houtSize, hout⟩ :=
      Storage.recordAt_getRuns hfits hle (Nat.le_of_eq hsize.symm) s
    refine ⟨_, _, Storage.copyIn_of_fits hfits buffer s, Storage.copyOut_of_fits hfits buffer s,
      hin, ?_, houtSize, hout, ?_⟩
    · intro j hj
      exact getD_congr_of_recordAt shape.elementSize_pos' (hkept _ hj)
    · intro target htarget
      rw [Storage.copyOut_of_fits hfits]
      exact congrArg Except.ok (Storage.getRuns_putRuns hfits hle hsize htarget s)
  · rintro other source hpos' hle' ⟨a, hclaim, hother⟩ hseparate
    replace hle' : other.len.toNat ≤ shape.capacity := hle'
    replace hclaim : claim.Within a shape.capacity := hclaim
    exact Storage.copyIn_comm hpos hle hpos' hle' (Claim.slots_ne hclaim hother hseparate) buffer
      source s

/-- Three elements from two positions before `2 ^ 64` on, and one behind them. -/
theorem copies_through_wrap_straddling :
    let claim : Claim := ⟨0 - 2, 1⟩
    let other : Claim := ⟨1, 2⟩
    let buffer := (Array.range 36).map Nat.toUInt8
    ∃ r, create (.below 100) ⟨"wrap", by decide⟩ 4 12 .multi .single = .ok r ∧
      (0 < claim.len.toNat ∧ claim.len.toNat ≤ (4 : UInt64).toNat ∧
        buffer.size = claim.len.toNat * (12 : UInt64).toNat) ∧
      Storage.blank.copyIn (r.shape.inBuild .checked) claim buffer = .error .subtraction ∧
      (∃ stored, Storage.blank.copyIn (r.shape.inBuild .wrapping) claim buffer = .ok stored ∧
        stored.copyOut (r.shape.inBuild .wrapping) claim (Array.replicate 36 0) = .ok buffer) ∧
      (Storage.blank.copyIn (r.shape.inBuild .wrapping) claim buffer >>=
          (·.copyIn (r.shape.inBuild .wrapping) other (Array.replicate 12 7))) =
        (Storage.blank.copyIn (r.shape.inBuild .wrapping) other (Array.replicate 12 7) >>=
          (·.copyIn (r.shape.inBuild .wrapping) claim buffer)) := by
  intro claim other buffer
  have hcreate : create (.below 100) ⟨"wrap", by decide⟩ 4 12 .multi .single =
    .ok (ofShape ⟨"wrap", by decide⟩ ⟨4, 12, by decide, by decide, by decide, by decide, by decide,
      .wrapping⟩ .multi .single) := rfl
  have hclaim : 0 < claim.len.toNat ∧ claim.len.toNat ≤ (4 : UInt64).toNat ∧
      buffer.size = claim.len.toNat * (12 : UInt64).toNat := by decide +kernel
  obtain ⟨-, -, -, -, -, hpanics, -, -⟩ :=
    copies_through_wrap hcreate .checked hclaim.1 hclaim.2.1 hclaim.2.2 .blank
  obtain ⟨-, -, -, -, -, -, hcopies, horder⟩ :=
    copies_through_wrap hcreate .wrapping hclaim.1 hclaim.2.1 hclaim.2.2 .blank
  obtain ⟨stored, -, hstored, -, -, -, -, -, hback⟩ := hcopies (.inl rfl)
  exact ⟨_, hcreate, hclaim, (hpanics ⟨rfl, by decide⟩).1,
    ⟨stored, hstored, hback _ (by decide +kernel)⟩,
    horder other _ (by decide) (by decide) ⟨0 - 2, by decide, by decide⟩ (by decide)⟩

/-- So a claim of no more than the capacity is not enough for a copy. -/
theorem not_forall_copyIn_ok :
    ¬ ∀ (shape : Shape) (claim : Claim) (buffer : Array UInt8) (s : Storage),
      0 < claim.len.toNat → claim.len.toNat ≤ shape.capacity →
      buffer.size = claim.len.toNat * shape.elementSize →
        ∃ stored, s.copyIn shape claim buffer = .ok stored := by
  intro h
  obtain ⟨stored, hstored⟩ := h ⟨1, 4, by decide, by decide, by decide, by decide, by decide,
    .checked⟩ ⟨0 - 1, 0⟩ #[1, 2, 3, 4] .blank (by decide) (by decide) rfl
  cases hstored

end Ring

end BurstRing
