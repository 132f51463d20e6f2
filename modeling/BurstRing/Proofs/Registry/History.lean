import BurstRing.Registry

/-!
# Names and the references behind them

Rings are created under names, looked up, freed and used, and references to them come and go, in any
order.  A `RegistryHistory` keeps beside the registry a list of what has happened to names and
references, and that list alone says to which ring a name was last given without being freed
(`RegistryHistory.given?`) and how many references keep a ring (`RegistryHistory.holders`).

The registry says the same (`RegistryHistory.Agrees`), although its own map is another thing: it
keeps leftovers of rings that nobody holds, until they are replaced, pruned or hit by a free that
fails.  A ring that is not held never comes back, so leftovers are never found
(`RegistryHistory.Agrees.find?_iff`).
-/

namespace BurstRing

/-- Something done with a registry, or with a reference to a ring of it. -/
inductive RegistryOp where
  | create (memory : Memory) (name : RingName) (capacity elementSize : UInt64)
      (producer consumer : SyncMode)
  | createFromConfig (memory : Memory) (config : RingConfig)
  | lookup (name : String)
  | free (name : String)
  | prune
  /-- Take one more reference. -/
  | retain (ref : RingRef)
  /-- Drop a reference. -/
  | release (ref : RingRef)
  /-- Do something to the ring itself. -/
  | use (ref : RingRef) (f : Ring → Ring)

/-- What has happened to a name or to a reference. -/
inductive RegistryDeed where
  | created (name : String) (ref : RingRef)
  /-- A free that succeeded. -/
  | freed (name : String)
  | retained (ref : RingRef)
  | released (ref : RingRef)
  deriving DecidableEq, Repr

namespace RegistryDeed

/-- The ring that `name` was last given to, unless it has been freed since. -/
def given? (name : String) : List RegistryDeed → Option RingRef
  | [] => none
  | .created other ref :: deeds => if other = name then some ref else given? name deeds
  | .freed other :: deeds => if other = name then none else given? name deeds
  | .retained _ :: deeds | .released _ :: deeds => given? name deeds

/-- Number of references that keep a ring; whoever creates it has the first. -/
def holders (ref : RingRef) : List RegistryDeed → Nat
  | [] => 0
  | .created _ other :: deeds | .retained other :: deeds =>
    if other = ref then holders ref deeds + 1 else holders ref deeds
  | .released other :: deeds => if other = ref then holders ref deeds - 1 else holders ref deeds
  | .freed _ :: deeds => holders ref deeds

theorem created_of_given? {name : String} {ref : RingRef} {deeds : List RegistryDeed}
    (h : given? name deeds = some ref) : .created name ref ∈ deeds := by
  induction deeds with
  | nil => cases h
  | cons deed deeds ih =>
      cases deed with
      | created other ref' =>
          rw [given?] at h
          split at h
          · rename_i hsame
            cases h
            subst hsame
            exact List.mem_cons_self
          · exact List.mem_cons_of_mem _ (ih h)
      | freed other =>
          rw [given?] at h
          split at h
          · cases h
          · exact List.mem_cons_of_mem _ (ih h)
      | retained | released => exact List.mem_cons_of_mem _ (ih h)

end RegistryDeed

/-! ### References of a registry -/

namespace Registry

variable {g : Registry} {ref : RingRef}

/-- Number of references that keep the ring behind `ref`. -/
def holders (g : Registry) (ref : RingRef) : Nat :=
  (g.rings[ref.index]?.map HeldRing.holders).getD 0

theorem isLive_iff : g.isLive ref = true ↔ 0 < g.holders ref := by
  rw [isLive, holders]
  cases g.rings[ref.index]? with
  | none => simp
  | some held => simp [HeldRing.isLive, Nat.pos_iff_ne_zero]

@[simp] theorem holders_push (ring : Ring) (names : Std.TreeMap String RingRef) (other : RingRef) :
    holders ⟨g.rings.push ⟨ring, 1⟩, names⟩ other =
      if (⟨g.rings.size⟩ : RingRef) = other then 1 else g.holders other := by
  obtain ⟨i⟩ := other
  by_cases hi : i = g.rings.size
  · simp [holders, hi]
  · simp [holders, Array.getElem?_push, hi, Ne.symm hi]

@[simp] theorem holders_retain (h : 0 < g.holders ref) (other : RingRef) :
    (g.retain ref).holders other =
      if ref = other then g.holders other + 1 else g.holders other := by
  obtain ⟨i⟩ := ref
  obtain ⟨j⟩ := other
  by_cases hij : i = j
  · subst hij
    simp only [holders, retain, Array.getElem?_modify, if_true] at h ⊢
    cases hget : g.rings[i]? with
    | none =>
        rw [hget] at h
        cases h
    | some held =>
        rw [hget] at h
        simp [HeldRing.isLive, Nat.ne_of_gt (show 0 < held.holders from h)]
  · simp [holders, retain, Array.getElem?_modify, hij]

@[simp] theorem holders_release (other : RingRef) :
    (g.release ref).holders other =
      if ref = other then g.holders other - 1 else g.holders other := by
  obtain ⟨i⟩ := ref
  obtain ⟨j⟩ := other
  by_cases hij : i = j
  · subst hij
    cases hget : g.rings[i]? <;> simp [holders, release, Array.getElem?_modify, hget]
  · simp [holders, release, Array.getElem?_modify, hij]

@[simp] theorem holders_update {α : Type} (f : Ring → α × Ring) (other : RingRef) :
    (g.update ref f).2.holders other = g.holders other := by
  rw [update]
  split
  · rfl
  · by_cases hij : ref.index = other.index
    · cases hget : g.rings[other.index]? <;> simp [holders, Array.getElem?_modify, hij, hget]
    · simp [holders, Array.getElem?_modify, hij]

@[simp] theorem size_retain : (g.retain ref).rings.size = g.rings.size := Array.size_modify

@[simp] theorem size_release : (g.release ref).rings.size = g.rings.size := Array.size_modify

theorem names_update {α : Type} (f : Ring → α × Ring) : (g.update ref f).2.names = g.names := by
  rw [update]
  split <;> rfl

theorem size_update {α : Type} (f : Ring → α × Ring) :
    (g.update ref f).2.rings.size = g.rings.size := by
  rw [update]
  split
  · rfl
  · exact Array.size_modify

end Registry

/-- A registry, and what has happened to names and references, newest first. -/
structure RegistryHistory where
  registry : Registry
  deeds : List RegistryDeed

namespace RegistryHistory

def start : RegistryHistory := ⟨.empty, []⟩

def given? (h : RegistryHistory) (name : String) : Option RingRef :=
  RegistryDeed.given? name h.deeds

def holders (h : RegistryHistory) (ref : RingRef) : Nat := RegistryDeed.holders ref h.deeds

/-- Somebody holds the ring. -/
def IsHeld (h : RegistryHistory) (ref : RingRef) : Prop := 0 < h.holders ref

instance (h : RegistryHistory) (ref : RingRef) : Decidable (h.IsHeld ref) :=
  inferInstanceAs (Decidable (_ < _))

/-- The name is that of a ring somebody holds. -/
def IsTaken (h : RegistryHistory) (name : String) : Prop :=
  ∃ ref, h.given? name = some ref ∧ h.IsHeld ref

/-- Notes how a creation went. -/
def enter (h : RegistryHistory) (name : RingName) : Except Failure RingRef × Registry →
    RegistryHistory
  | (.ok ref, registry) => ⟨registry, .created name.text ref :: h.deeds⟩
  | (.error _, registry) => { h with registry }

/-- Does one thing.  Nobody can retain, drop or use a reference to a ring that is not held. -/
def act (h : RegistryHistory) : RegistryOp → RegistryHistory
  | .create memory name capacity elementSize producer consumer =>
    h.enter name (h.registry.create memory name capacity elementSize producer consumer)
  | .createFromConfig memory config =>
    h.enter config.name (h.registry.createFromConfig memory config)
  | .lookup name =>
    match h.registry.lookup name with
    | (some ref, registry) => ⟨registry, .retained ref :: h.deeds⟩
    | (none, registry) => { h with registry }
  | .free name =>
    match h.registry.free name with
    | (.ok _, registry) => ⟨registry, .freed name :: h.deeds⟩
    | (.error _, registry) => { h with registry }
  | .prune => { h with registry := h.registry.prune.2 }
  | .retain ref =>
    if h.IsHeld ref then ⟨h.registry.retain ref, .retained ref :: h.deeds⟩ else h
  | .release ref =>
    if h.IsHeld ref then ⟨h.registry.release ref, .released ref :: h.deeds⟩ else h
  | .use ref f =>
    if h.IsHeld ref then
      { h with registry := (h.registry.update ref fun ring => ((), f ring)).2 }
    else h

/-- Does one thing after another. -/
def run (ops : List RegistryOp) (h : RegistryHistory) : RegistryHistory := ops.foldl act h

/-! ### Agreement -/

/-- The registry says what has happened. -/
structure Agrees (h : RegistryHistory) : Prop where
  holders_eq : ∀ ref, h.registry.holders ref = h.holders ref
  created_lt : ∀ {name ref}, .created name ref ∈ h.deeds → ref.index < h.registry.rings.size
  given_of_names : ∀ {name ref}, h.registry.names[name]? = some ref → h.given? name = some ref
  names_of_given : ∀ {name ref}, h.given? name = some ref → h.IsHeld ref →
    h.registry.names[name]? = some ref

theorem agrees_start : start.Agrees where
  holders_eq := fun _ => rfl
  created_lt := nofun
  given_of_names := by simp [start, Registry.empty]
  names_of_given := nofun

namespace Agrees

variable {h : RegistryHistory} {name : String} {ref : RingRef}

theorem isLive_iff (ha : h.Agrees) : h.registry.isLive ref = true ↔ h.IsHeld ref := by
  rw [Registry.isLive_iff, ha.holders_eq, IsHeld]

/-- Leftovers are not found. -/
theorem find?_iff (ha : h.Agrees) :
    h.registry.find? name = some ref ↔ h.given? name = some ref ∧ h.IsHeld ref := by
  rw [Registry.find?, Option.filter_eq_some_iff, ha.isLive_iff]
  constructor
  · rintro ⟨hname, hheld⟩
    exact ⟨ha.given_of_names hname, hheld⟩
  · rintro ⟨hgiven, hheld⟩
    exact ⟨ha.names_of_given hgiven hheld, hheld⟩

theorem find?_eq_none (ha : h.Agrees) (hfree : ¬ h.IsTaken name) :
    h.registry.find? name = none := by
  rw [Option.eq_none_iff_forall_not_mem]
  exact fun ref hmem => hfree ⟨ref, ha.find?_iff.mp hmem⟩

/-- A new ring is known under its name. -/
theorem create (ha : h.Agrees) (name : RingName) (ring : Ring) :
    Agrees ⟨⟨h.registry.rings.push ⟨ring, 1⟩,
        h.registry.names.insert name.text ⟨h.registry.rings.size⟩⟩,
      .created name.text ⟨h.registry.rings.size⟩ :: h.deeds⟩ where
  holders_eq := by
    intro ref
    have hold := ha.holders_eq ref
    rw [Registry.holders_push, holders, RegistryDeed.holders]
    split
    · rename_i hnew
      -- Nobody holds a ring that has not been created.
      have hnone : h.holders ref = 0 := by
        subst hnew
        rw [← hold, Registry.holders, Array.getElem?_eq_none (Nat.le_refl _)]
        rfl
      rw [show RegistryDeed.holders ref h.deeds = 0 from hnone]
    · exact hold
  created_lt := by
    intro other ref hmem
    rw [Array.size_push]
    rcases List.mem_cons.mp hmem with heq | hmem
    · cases heq
      exact Nat.lt_succ_self _
    · exact Nat.lt_succ_of_lt (ha.created_lt hmem)
  given_of_names := by
    intro other ref hname
    rw [Std.TreeMap.getElem?_insert] at hname
    simp only [Std.LawfulEqCmp.compare_eq_iff_eq] at hname
    rw [given?, RegistryDeed.given?]
    split at hname
    · rwa [if_pos ‹_›]
    · rw [if_neg ‹_›]
      exact ha.given_of_names hname
  names_of_given := by
    intro other ref hgiven hheld
    rw [Std.TreeMap.getElem?_insert]
    simp only [Std.LawfulEqCmp.compare_eq_iff_eq]
    rw [given?, RegistryDeed.given?] at hgiven
    split at hgiven
    · rwa [if_pos ‹_›]
    · rw [if_neg ‹_›]
      -- The ring that `other` was given to is an older one.
      have hold := ha.created_lt (RegistryDeed.created_of_given? hgiven)
      have hne : (⟨h.registry.rings.size⟩ : RingRef) ≠ ref := by
        rintro rfl
        exact Nat.lt_irrefl _ hold
      rw [IsHeld, holders, RegistryDeed.holders, if_neg hne] at hheld
      exact ha.names_of_given hgiven hheld

/-- One more reference to a ring that is held already. -/
theorem retain (ha : h.Agrees) (hheld : h.IsHeld ref) :
    Agrees ⟨h.registry.retain ref, .retained ref :: h.deeds⟩ where
  holders_eq := by
    intro other
    rw [Registry.holders_retain (ha.holders_eq ref ▸ hheld), ha.holders_eq]
    rfl
  created_lt := by
    intro name other hmem
    simp only [List.mem_cons, reduceCtorEq, false_or] at hmem
    rw [Registry.size_retain]
    exact ha.created_lt hmem
  given_of_names := ha.given_of_names
  names_of_given := by
    intro name other hgiven hmore
    refine ha.names_of_given hgiven ?_
    by_cases hsame : ref = other
    · exact hsame ▸ hheld
    · rwa [IsHeld, holders, RegistryDeed.holders, if_neg hsame] at hmore

/-- One reference less; a ring that still has one had one before. -/
theorem release (ha : h.Agrees) (ref : RingRef) :
    Agrees ⟨h.registry.release ref, .released ref :: h.deeds⟩ where
  holders_eq := by
    intro other
    rw [Registry.holders_release, ha.holders_eq]
    rfl
  created_lt := by
    intro name other hmem
    simp only [List.mem_cons, reduceCtorEq, false_or] at hmem
    rw [Registry.size_release]
    exact ha.created_lt hmem
  given_of_names := ha.given_of_names
  names_of_given := by
    intro name other hgiven hmore
    refine ha.names_of_given hgiven ?_
    rw [IsHeld, holders, RegistryDeed.holders] at hmore
    split at hmore
    · exact Nat.lt_of_lt_of_le hmore (Nat.sub_le _ _)
    · exact hmore

theorem freed (ha : h.Agrees) (name : String) :
    Agrees ⟨{ h.registry with names := h.registry.names.erase name }, .freed name :: h.deeds⟩ where
  holders_eq := ha.holders_eq
  created_lt := by
    intro other ref hmem
    simp only [List.mem_cons, reduceCtorEq, false_or] at hmem
    exact ha.created_lt hmem
  given_of_names := by
    intro other ref hname
    rw [Std.TreeMap.getElem?_erase] at hname
    simp only [Std.LawfulEqCmp.compare_eq_iff_eq] at hname
    rw [given?, RegistryDeed.given?]
    split at hname
    · cases hname
    · rw [if_neg ‹_›]
      exact ha.given_of_names hname
  names_of_given := by
    intro other ref hgiven hheld
    rw [Std.TreeMap.getElem?_erase]
    simp only [Std.LawfulEqCmp.compare_eq_iff_eq]
    rw [given?, RegistryDeed.given?] at hgiven
    split at hgiven
    · cases hgiven
    · rw [if_neg ‹_›]
      exact ha.names_of_given hgiven hheld

/-- A free that fails may take a leftover away. -/
theorem unfreed (ha : h.Agrees) (hnone : h.registry.find? name = none) :
    Agrees { h with registry := { h.registry with names := h.registry.names.erase name } } where
  holders_eq := ha.holders_eq
  created_lt := ha.created_lt
  given_of_names := by
    intro other ref hname
    rw [Std.TreeMap.getElem?_erase] at hname
    split at hname
    · cases hname
    · exact ha.given_of_names hname
  names_of_given := by
    intro other ref hgiven hheld
    rw [Std.TreeMap.getElem?_erase, if_neg]
    · exact ha.names_of_given hgiven hheld
    · intro heq
      rw [Std.LawfulEqCmp.eq_of_compare heq, ha.find?_iff.mpr ⟨hgiven, hheld⟩] at hnone
      cases hnone

/-- A prune takes away what nobody sees. -/
theorem prune (ha : h.Agrees) : (h.act .prune).Agrees where
  holders_eq := ha.holders_eq
  created_lt := ha.created_lt
  given_of_names := by
    intro name ref hname
    rw [act, Registry.prune, Std.TreeMap.getElem?_filter', Option.filter_eq_some_iff] at hname
    exact ha.given_of_names hname.1
  names_of_given := by
    intro name ref hgiven hheld
    rw [act, Registry.prune, Std.TreeMap.getElem?_filter', Option.filter_eq_some_iff]
    exact ⟨ha.names_of_given hgiven hheld, ha.isLive_iff.mpr hheld⟩

theorem use (ha : h.Agrees) (ref : RingRef) (f : Ring → Ring) :
    Agrees { h with registry := (h.registry.update ref fun ring => ((), f ring)).2 } where
  holders_eq := fun other => (Registry.holders_update _ other).trans (ha.holders_eq other)
  created_lt := fun hmem => Nat.lt_of_lt_of_eq (ha.created_lt hmem) (Registry.size_update _).symm
  given_of_names := fun hname => ha.given_of_names (Registry.names_update (g := h.registry) _ ▸ hname)
  names_of_given := fun hgiven hheld =>
    (Registry.names_update (g := h.registry) _).symm ▸ ha.names_of_given hgiven hheld

theorem enter (ha : h.Agrees) (memory : Memory) (name : RingName) (capacity elementSize : UInt64)
    (producer consumer : SyncMode) :
    (h.enter name
      (h.registry.create memory name capacity elementSize producer consumer)).Agrees := by
  rw [Registry.create]
  split
  · exact ha
  · split
    · exact ha
    · exact ha.create name _

theorem act (ha : h.Agrees) (op : RegistryOp) : (h.act op).Agrees := by
  cases op with
  | create memory name capacity elementSize producer consumer => exact ha.enter ..
  | createFromConfig memory config => exact ha.enter ..
  | lookup name =>
      simp only [RegistryHistory.act, Registry.lookup]
      cases hfind : h.registry.find? name with
      | none => exact ha
      | some ref => exact ha.retain (ha.find?_iff.mp hfind).2
  | free name =>
      simp only [RegistryHistory.act, Registry.free]
      cases hfind : h.registry.find? name with
      | none => exact ha.unfreed hfind
      | some ref => exact ha.freed name
  | prune => exact ha.prune
  | retain ref =>
      rw [RegistryHistory.act]
      split
      · rename_i hheld
        exact ha.retain hheld
      · exact ha
  | release ref =>
      rw [RegistryHistory.act]
      split
      · exact ha.release ref
      · exact ha
  | use ref f =>
      rw [RegistryHistory.act]
      split
      · exact ha.use ref f
      · exact ha

theorem run (ops : List RegistryOp) : ∀ {h : RegistryHistory}, h.Agrees → (h.run ops).Agrees := by
  induction ops with
  | nil => intro h ha; exact ha
  | cons op ops ih => intro h ha; exact ih (ha.act op)

end Agrees

end RegistryHistory

end BurstRing
