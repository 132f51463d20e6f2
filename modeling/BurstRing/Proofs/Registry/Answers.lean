import BurstRing.Proofs.Registry.Creation
import BurstRing.Proofs.Registry.History
import Mathlib.Data.List.Sort

/-!
# What the registry answers

All answers of a registry follow from what has happened to names and references.  Leftovers do not
show: two registries with one history and the same rings give the same answers, and go on doing so
whatever else is done with both (`RegistryHistory.Alike`).  So it makes no difference whether and
when leftovers are cleared away, by a prune or by a free that fails.  The main statement is
`RegistryHistory.answered_by_history`.
-/

namespace BurstRing

namespace Registry

variable {g k : Registry} {name : String} {ref : RingRef}

@[simp] theorem lookup_fst : (g.lookup name).1 = g.find? name := by
  rw [lookup]
  cases g.find? name <;> rfl

@[simp] theorem free_fst :
    (g.free name).1 = if (g.find? name).isSome then .ok () else .error (.notFound name) := rfl

theorem compare_text_lt {a b : String} (h : compare a b = .lt) : a < b :=
  compareOfLessAndEq_eq_lt.mp h

theorem sorted_list (g : Registry) : g.list.Pairwise (· < ·) := by
  rw [list, List.pairwise_map]
  exact (Std.TreeMap.ordered_keys_toList.imp compare_text_lt).filter _

theorem mem_list : name ∈ g.list ↔ ∃ ref, g.find? name = some ref := by
  simp [list, find?, Std.TreeMap.mem_toList_iff_getElem?_eq_some, Option.filter_eq_some_iff]

/-- Two ascending lists of the same names are one. -/
theorem list_eq (h : ∀ name, g.find? name = k.find? name) : g.list = k.list :=
  g.sorted_list.eq_of_mem_iff k.sorted_list fun name => by rw [mem_list, mem_list, h]

/-- A new ring is found under its name. -/
theorem find?_insert (ring : Ring) :
    find? ⟨g.rings.push ⟨ring, 1⟩, g.names.insert name ⟨g.rings.size⟩⟩ name =
      some ⟨g.rings.size⟩ := by
  simp [find?, isLive, HeldRing.isLive]

theorem find?_erase : find? { g with names := g.names.erase name } name = none := by
  simp [find?]

theorem find?_erase_of_ne {other : String} (h : other ≠ name) :
    find? { g with names := g.names.erase name } other = g.find? other := by
  have hne : compare name other ≠ .eq := fun heq => h (Std.LawfulEqCmp.eq_of_compare heq).symm
  simp only [find?, Std.TreeMap.getElem?_erase, if_neg hne]
  rfl

theorem exists_ring?_iff : (∃ ring, g.ring? ref = some ring) ↔ g.isLive ref = true := by
  rw [ring?, isLive]
  cases g.rings[ref.index]? <;> simp

theorem ring?_release {old : RingRef} (h : old ≠ ref) :
    (g.release old).ring? ref = g.ring? ref := by
  obtain ⟨i⟩ := old
  obtain ⟨j⟩ := ref
  have hij : i ≠ j := fun heq => h (congrArg RingRef.mk heq)
  simp [ring?, release, Array.getElem?_modify, hij]

/-- What a prune leaves is what is listed. -/
theorem size_prune (g : Registry) : g.prune.2.names.size = g.size := by
  rw [prune, size, list, List.length_map, ← Std.TreeMap.length_toList, Std.TreeMap.toList_filter]

theorem prune_fst (g : Registry) : g.prune.1 + g.size = g.names.size := by
  have hle : g.size ≤ g.names.size := by
    rw [size, list, List.length_map, ← Std.TreeMap.length_toList]
    exact List.length_filter_le ..
  rw [← size_prune] at hle ⊢
  exact Nat.sub_add_cancel hle

theorem ring?_eq (h : g.rings = k.rings) (ref : RingRef) : g.ring? ref = k.ring? ref := by
  rw [ring?, ring?, h]

/-- Every question has one answer from both.  How many leftovers there are is not asked. -/
structure AnswersAs (g k : Registry) : Prop where
  lookup : ∀ name, (g.lookup name).1 = (k.lookup name).1
  create : ∀ memory name capacity elementSize producer consumer,
    (g.create memory name capacity elementSize producer consumer).1 =
      (k.create memory name capacity elementSize producer consumer).1
  createFromConfig : ∀ memory config,
    (g.createFromConfig memory config).1 = (k.createFromConfig memory config).1
  free : ∀ name, (g.free name).1 = (k.free name).1
  info : ∀ name, g.info name = k.info name
  list : g.list = k.list
  size : g.size = k.size
  ring : ∀ ref, g.ring? ref = k.ring? ref

end Registry

namespace RegistryHistory

variable {h k : RegistryHistory} {name : String} {ref : RingRef}

/-! ### One history -/

/-- The same has happened, and the rings are the same; the leftovers may differ. -/
structure Alike (h k : RegistryHistory) : Prop where
  left : h.Agrees
  right : k.Agrees
  deeds_eq : h.deeds = k.deeds
  rings_eq : h.registry.rings = k.registry.rings

namespace Alike

theorem find?_eq (hk : h.Alike k) (name : String) :
    h.registry.find? name = k.registry.find? name := by
  ext ref
  rw [hk.left.find?_iff, hk.right.find?_iff, given?, given?, IsHeld,
    IsHeld, holders, holders, hk.deeds_eq]

theorem isHeld_iff (hk : h.Alike k) : h.IsHeld ref ↔ k.IsHeld ref := by
  rw [IsHeld, IsHeld, holders, holders, hk.deeds_eq]

theorem enter_eq (hk : h.Alike k) (memory : Memory) (name : RingName)
    (capacity elementSize : UInt64) (producer consumer : SyncMode) :
    let h' := h.enter name
      (h.registry.create memory name capacity elementSize producer consumer)
    let k' := k.enter name
      (k.registry.create memory name capacity elementSize producer consumer)
    h'.deeds = k'.deeds ∧ h'.registry.rings = k'.registry.rings := by
  simp only [Registry.create, hk.find?_eq]
  cases k.registry.find? name.text with
  | some ref => exact ⟨hk.deeds_eq, hk.rings_eq⟩
  | none =>
      cases Ring.create memory name capacity elementSize producer consumer with
      | error e => exact ⟨hk.deeds_eq, hk.rings_eq⟩
      | ok ring => simp [enter, hk.deeds_eq, hk.rings_eq]

theorem act (hk : h.Alike k) (op : RegistryOp) : (h.act op).Alike (k.act op) := by
  -- That the invariant is kept is known of each of the two; what is done depends on answers that
  -- both give.
  suffices heq : (h.act op).deeds = (k.act op).deeds ∧
      (h.act op).registry.rings = (k.act op).registry.rings from
    ⟨hk.left.act op, hk.right.act op, heq.1, heq.2⟩
  cases op with
  | create memory name capacity elementSize producer consumer => exact hk.enter_eq ..
  | createFromConfig memory config => exact hk.enter_eq ..
  | lookup name =>
      simp only [RegistryHistory.act, Registry.lookup, hk.find?_eq]
      cases k.registry.find? name with
      | none => exact ⟨hk.deeds_eq, hk.rings_eq⟩
      | some ref => simp [Registry.retain, hk.deeds_eq, hk.rings_eq]
  | free name =>
      simp only [RegistryHistory.act, Registry.free, hk.find?_eq]
      cases k.registry.find? name with
      | none => exact ⟨hk.deeds_eq, hk.rings_eq⟩
      | some ref => simp [hk.deeds_eq, hk.rings_eq]
  | prune => exact ⟨hk.deeds_eq, hk.rings_eq⟩
  | retain ref =>
      by_cases hheld : k.IsHeld ref <;>
        simp [RegistryHistory.act, Registry.retain, hk.isHeld_iff, hheld, hk.deeds_eq, hk.rings_eq]
  | release ref =>
      by_cases hheld : k.IsHeld ref <;>
        simp [RegistryHistory.act, Registry.release, hk.isHeld_iff, hheld, hk.deeds_eq, hk.rings_eq]
  | use ref f =>
      by_cases hheld : k.IsHeld ref
      · simp only [RegistryHistory.act, Registry.update, hk.isHeld_iff, hheld,
          Registry.ring?_eq hk.rings_eq]
        cases k.registry.ring? ref <;> simp [hk.deeds_eq, hk.rings_eq]
      · simp [RegistryHistory.act, hk.isHeld_iff, hheld, hk.deeds_eq, hk.rings_eq]

theorem run (ops : List RegistryOp) : ∀ {h k : RegistryHistory}, h.Alike k →
    (h.run ops).Alike (k.run ops) := by
  induction ops with
  | nil => intro h k hk; exact hk
  | cons op ops ih => intro h k hk; exact ih (hk.act op)

theorem answersAs (hk : h.Alike k) : h.registry.AnswersAs k.registry := by
  have hlist : h.registry.list = k.registry.list := Registry.list_eq hk.find?_eq
  have hcreate : ∀ memory name capacity elementSize producer consumer,
      (h.registry.create memory name capacity elementSize producer consumer).1 =
        (k.registry.create memory name capacity elementSize producer consumer).1 := by
    intro memory name capacity elementSize producer consumer
    rw [Registry.create, Registry.create, hk.find?_eq, hk.rings_eq]
    cases k.registry.find? name.text with
    | some ref => rfl
    | none =>
        cases Ring.create memory name capacity elementSize producer consumer <;> rfl
  exact {
    lookup := fun name => by simp only [Registry.lookup_fst, hk.find?_eq]
    create := hcreate
    createFromConfig := fun memory config => hcreate ..
    free := fun name => by simp only [Registry.free_fst, hk.find?_eq]
    info := fun name => by
      have hring : h.registry.ring? = k.registry.ring? := funext (Registry.ring?_eq hk.rings_eq)
      rw [Registry.info, Registry.info, hk.find?_eq, hring]
    list := hlist
    size := congrArg List.length hlist
    ring := Registry.ring?_eq hk.rings_eq }

end Alike

/-! ### All answers -/

namespace Agrees

theorem ring?_iff (ha : h.Agrees) : (∃ ring, h.registry.ring? ref = some ring) ↔ h.IsHeld ref :=
  Registry.exists_ring?_iff.trans ha.isLive_iff

/-- A leftover goes unnoticed, by a prune or by a free that fails. -/
theorem alike_prune (ha : h.Agrees) : h.Alike (h.act .prune) := ⟨ha, ha.prune, rfl, rfl⟩

theorem alike_free (ha : h.Agrees) (hnone : h.registry.find? name = none) :
    h.Alike (h.act (.free name)) := by
  have hact : h.act (.free name) =
      { h with registry := { h.registry with names := h.registry.names.erase name } } := by
    rw [RegistryHistory.act, Registry.free, hnone]
    rfl
  exact ⟨ha, ha.act _, by rw [hact], by rw [hact]⟩

/-- To drop one ring does nothing to a name given to another. -/
theorem find?_release (ha : h.Agrees) (hgiven : h.given? name ≠ some ref) :
    (h.registry.release ref).find? name = h.registry.find? name := by
  ext other
  rw [(ha.release ref).find?_iff, ha.find?_iff]
  refine and_congr_right fun hother => ?_
  have hne : ref ≠ other := by
    rintro rfl
    exact hgiven hother
  rw [IsHeld, IsHeld, holders, holders, RegistryDeed.holders, if_neg hne]

theorem isTaken_iff (ha : h.Agrees) :
    h.IsTaken name ↔ ∃ ref, h.registry.find? name = some ref :=
  exists_congr fun _ => ha.find?_iff.symm

end Agrees

/-- The answers of the registry are those that the history calls for. -/
structure Answered (h : RegistryHistory) : Prop where
  /-- A name finds the very ring it was last given to, if it has not been freed since and somebody
  still holds that ring. -/
  found : ∀ name ref,
    (h.registry.lookup name).1 = some ref ↔ h.given? name = some ref ∧ h.IsHeld ref
  held : ∀ ref, (∃ ring, h.registry.ring? ref = some ring) ↔ h.IsHeld ref
  /-- A name that is taken is refused before anything else is looked at, and nothing changes. -/
  taken : ∀ memory (name : RingName) capacity elementSize producer consumer,
    h.IsTaken name.text →
      h.registry.create memory name capacity elementSize producer consumer =
        (.error (.registry (.alreadyExists name.text)), h.registry)
  /-- Otherwise the ring itself may be refused, and nothing changes. -/
  refused : ∀ memory (name : RingName) capacity elementSize producer consumer e,
    ¬ h.IsTaken name.text →
      Ring.create memory name capacity elementSize producer consumer = .error e →
      h.registry.create memory name capacity elementSize producer consumer =
        (.error (.ring e), h.registry)
  /-- Otherwise it is a new one, and the name finds it. -/
  created : ∀ memory (name : RingName) capacity elementSize producer consumer ring,
    ¬ h.IsTaken name.text →
      Ring.create memory name capacity elementSize producer consumer = .ok ring →
      ∃ ref g, h.registry.create memory name capacity elementSize producer consumer = (.ok ref, g) ∧
        (∀ other, .created other ref ∉ h.deeds) ∧
        (g.lookup name.text).1 = some ref ∧ g.ring? ref = some ring
  configured : ∀ memory config, h.registry.createFromConfig memory config =
    h.registry.create memory config.name config.capacity config.elementSize config.producer
      config.consumer
  /-- To drop a ring does nothing to a name that has been given to another since. -/
  dropped : ∀ old name, h.given? name ≠ some old →
    ((h.registry.release old).lookup name).1 = (h.registry.lookup name).1
  /-- Nor does it to another ring. -/
  others : ∀ old ref, old ≠ ref → (h.registry.release old).ring? ref = h.registry.ring? ref
  informed : ∀ name ref ring, (h.registry.lookup name).1 = some ref →
    h.registry.ring? ref = some ring → h.registry.info name = .ok ring.info
  uninformed : ∀ name, (h.registry.lookup name).1 = none →
    h.registry.info name = .error (.notFound name)
  ascending : h.registry.list.Pairwise (· < ·)
  listed : ∀ name, name ∈ h.registry.list ↔ ∃ ref, (h.registry.lookup name).1 = some ref
  size_eq : h.registry.size = h.registry.list.length
  isEmpty_iff : h.registry.isEmpty = true ↔ h.registry.list = []
  /-- A free ends the name it is about and no other, and no ring. -/
  freed : ∀ name ref, (h.registry.lookup name).1 = some ref →
    (h.registry.free name).1 = .ok ()
  unfreed : ∀ name, (h.registry.lookup name).1 = none →
    (h.registry.free name).1 = .error (.notFound name)
  free_self : ∀ name, ((h.registry.free name).2.lookup name).1 = none
  free_others : ∀ name other, other ≠ name →
    ((h.registry.free name).2.lookup other).1 = (h.registry.lookup other).1
  free_rings : ∀ name ref, (h.registry.free name).2.ring? ref = h.registry.ring? ref
  /-- A prune takes away the names that nobody finds, and counts them. -/
  pruned : h.registry.prune.1 + h.registry.size = h.registry.names.size ∧
    h.registry.prune.2.names.size = h.registry.size
  /-- Nobody notices, then or later. -/
  prune_unnoticed : ∀ more,
    (h.run more).registry.AnswersAs ((h.act .prune).run more).registry
  /-- Nor does anybody notice a free that fails. -/
  free_unnoticed : ∀ name, (h.registry.lookup name).1 = none → ∀ more,
    (h.run more).registry.AnswersAs ((h.act (.free name)).run more).registry

/-- **Answers by history.**  After any operations the registry answers what has happened. -/
theorem answered_by_history (ops : List RegistryOp) : (start.run ops).Answered := by
  have ha : (start.run ops).Agrees := agrees_start.run ops
  generalize start.run ops = h at ha
  exact {
    found := fun name ref => by rw [Registry.lookup_fst, ha.find?_iff]
    held := fun ref => ha.ring?_iff
    taken := by
      intro memory name capacity elementSize producer consumer htaken
      obtain ⟨ref, hfind⟩ := ha.isTaken_iff.mp htaken
      rw [Registry.create, hfind]
    refused := by
      intro memory name capacity elementSize producer consumer e hfree hring
      rw [Registry.create, ha.find?_eq_none hfree]
      dsimp only
      rw [hring]
    created := by
      intro memory name capacity elementSize producer consumer ring hfree hring
      exact ⟨_, _, Registry.create_eq (ha.find?_eq_none hfree) hring,
        fun other hmem => Nat.lt_irrefl _ (ha.created_lt hmem),
        Registry.lookup_fst.trans (Registry.find?_insert ring), Registry.ring?_push_size ..⟩
    configured := fun memory config => rfl
    dropped := fun old name hgiven => by
      rw [Registry.lookup_fst, Registry.lookup_fst, ha.find?_release hgiven]
    others := fun old ref hne => Registry.ring?_release hne
    informed := by
      intro name ref ring hfind hring
      rw [Registry.lookup_fst] at hfind
      rw [Registry.info, hfind, Option.bind_some, hring]
    uninformed := by
      intro name hnone
      rw [Registry.lookup_fst] at hnone
      rw [Registry.info, hnone]
      rfl
    ascending := h.registry.sorted_list
    listed := fun name => by simp only [Registry.lookup_fst, Registry.mem_list]
    size_eq := rfl
    isEmpty_iff := by simp [Registry.isEmpty, Registry.size]
    freed := fun name ref hfind => by
      rw [Registry.lookup_fst] at hfind
      rw [Registry.free_fst, hfind]
      rfl
    unfreed := fun name hnone => by
      rw [Registry.lookup_fst] at hnone
      rw [Registry.free_fst, hnone]
      rfl
    free_self := fun name => Registry.lookup_fst.trans Registry.find?_erase
    free_others := fun name other hne =>
      Registry.lookup_fst.trans ((Registry.find?_erase_of_ne hne).trans Registry.lookup_fst.symm)
    free_rings := fun name ref => rfl
    pruned := ⟨h.registry.prune_fst, h.registry.size_prune⟩
    prune_unnoticed := fun more => (ha.alike_prune.run more).answersAs
    free_unnoticed := fun name hnone more =>
      ((ha.alike_free (Registry.lookup_fst.symm.trans hnone)).run more).answersAs }

/-- A name that is given twice: the ring that had it first outlives the name, is dropped when
another has it, and leaves that one alone; dropped in turn, the second is a leftover. -/
example :
    let rx : RingName := ⟨"rx", by decide⟩
    let memory : Memory := ⟨fun _ => true⟩
    let h := start.run [.create memory rx 4 8 .single .single, .free "rx",
      .create memory rx 8 8 .single .single, .release ⟨0⟩]
    (h.registry.lookup "rx").1 = some ⟨1⟩ ∧ h.registry.list = ["rx"] ∧
      ((h.act (.release ⟨1⟩)).registry.lookup "rx").1 = none ∧
      (h.act (.release ⟨1⟩)).registry.prune.1 = 1 := by
  decide +kernel

end RegistryHistory

end BurstRing
