import BurstRing.ReceiveCache
import BurstRing.Registry
import BurstRing.Source.Synthetic

/-!
# Classes of errors, alone and folded

Each area classes its own errors, and `Failure` classes them once more when it folds them.  The two
agree on all errors but one (`Failure.kind_eq_iff`): a cache for which there is no memory is
short of memory by itself, and a bad argument when folded.

Whoever drives the library sees the folded class only.  A failure of that class `outOfMemory` is
always a ring whose storage was not granted (`Failure.kind_eq_outOfMemory_iff`); so for a ring,
alone or through a registry, the class tells whether the memory was the reason
(`Ring.create_kind`, `Registry.create_kind`, `Registry.createAll_kind`), and for a cache it does
not (`ReceiveCache.create_kind`).  `Failure.kinds_folded` has all of it.
-/

namespace BurstRing

/-- The numbers make a shape, but the memory does not grant its storage. -/
def Memory.Withholds (memory : Memory) (capacity elementSize : UInt64) : Prop :=
  ∃ shape, Shape.ofWords capacity elementSize = .ok shape ∧ memory.grants shape.bytes = false

/-! ### Classes -/

theorem RingError.kind_eq_outOfMemory_iff {e : RingError} :
    e.kind = .outOfMemory ↔ ∃ bytes, e = .outOfMemory bytes := by
  cases e <;> simp [kind]

theorem RegistryError.kind_ne_outOfMemory (e : RegistryError) : e.kind ≠ .outOfMemory := by
  cases e <;> simp [kind]

/-- What is not short of memory is a bad argument. -/
theorem SourceError.kind_eq_invalidArgument {e : SourceError} (h : ∀ size, e ≠ .outOfMemory size) :
    e.kind = .invalidArgument := by
  cases e with
  | outOfMemory size => exact absurd rfl (h size)
  | _ => rfl

theorem PipelineError.kind_ne_outOfMemory (e : PipelineError) : e.kind ≠ .outOfMemory := by
  cases e <;> simp [kind]

theorem LinkStateError.kind_ne_outOfMemory (e : LinkStateError) : e.kind ≠ .outOfMemory := by
  cases e <;> simp [kind]

theorem DiagnosticError.kind_ne_outOfMemory (e : DiagnosticError) : e.kind ≠ .outOfMemory := by
  cases e <;> simp [kind]

namespace Failure

variable {f : Failure} {k : ErrorKind}

/-- A failure that is short of memory is a ring without storage. -/
theorem kind_eq_outOfMemory_iff :
    f.kind = .outOfMemory ↔ ∃ bytes, f = .ring (.outOfMemory bytes) := by
  cases f with
  | ring e =>
      rw [kind, RingError.kind_eq_outOfMemory_iff]
      simp
  | registry e => simp [kind, e.kind_ne_outOfMemory]
  | pipeline e => simp [kind, e.kind_ne_outOfMemory]
  | linkState e => simp [kind, e.kind_ne_outOfMemory]
  | diagnostic e => simp [kind, e.kind_ne_outOfMemory]
  | _ => simp [kind]

/-- The folded class is that of the error inside, unless that is a cache without memory. -/
theorem kind_eq_iff (h : f.innerKind? = some k) :
    f.kind = k ↔ ∀ size, f ≠ .source (.outOfMemory size) := by
  cases f with
  | source e =>
      cases h
      constructor
      · rintro hkind size ⟨⟩
        cases hkind
      · intro hne
        exact (SourceError.kind_eq_invalidArgument fun size heq => hne size (heq ▸ rfl)).symm
  | ring | registry | pipeline | linkState | diagnostic =>
      cases h
      exact iff_of_true rfl nofun
  | _ => cases h

end Failure

/-! ### Rings -/

/-- Numbers that make no shape are a bad argument. -/
theorem Shape.ofWords_kind {capacity elementSize : UInt64} {e : RingError}
    (h : ofWords capacity elementSize = .error e) : e.kind = .invalidArgument := by
  rw [ofWords] at h
  repeat' split at h
  all_goals
    cases h
  all_goals rfl

theorem Ring.create_kind {memory : Memory} {name : RingName} {capacity elementSize : UInt64}
    {producer consumer : SyncMode} {e : RingError}
    (h : create memory name capacity elementSize producer consumer = .error e) :
    e.kind = .outOfMemory ↔ memory.Withholds capacity elementSize := by
  rw [create] at h
  cases hwords : Shape.ofWords capacity elementSize with
  | error e' =>
      rw [hwords] at h
      cases h
      rw [Shape.ofWords_kind hwords]
      refine iff_of_false nofun ?_
      rintro ⟨shape, hshape, -⟩
      cases hwords.symm.trans hshape
  | ok shape =>
      rw [hwords] at h
      dsimp only [bind, Except.bind] at h
      split at h
      · cases h
      next hgrants =>
        cases h
        exact iff_of_true rfl ⟨shape, hwords, Bool.eq_false_iff.mpr hgrants⟩

/-! ### Registries -/

namespace Registry

variable {memory : Memory} {f : Failure}

theorem create_kind {name : RingName} {capacity elementSize : UInt64}
    {producer consumer : SyncMode} {g : Registry}
    (h : (g.create memory name capacity elementSize producer consumer).1 = .error f) :
    f.kind = .outOfMemory ↔
      g.find? name.text = none ∧ memory.Withholds capacity elementSize := by
  rw [create] at h
  split at h
  next hfound =>
    cases h
    exact iff_of_false nofun fun ⟨hfree, _⟩ => Option.some_ne_none _ (hfound.symm.trans hfree)
  next hfree =>
    split at h
    next hring =>
      cases h
      exact (Ring.create_kind hring).trans (and_iff_right hfree).symm
    · cases h

/-- Creating all rings fails because creating one of them does, when those before it are there. -/
theorem exists_createFromConfig_error {configs : List RingConfig} :
    ∀ {g : Registry}, (g.createAll memory configs).1 = .error f →
      ∃ before config behind refs g', configs = before ++ config :: behind ∧
        g.createAll memory before = (.ok refs, g') ∧
        (g'.createFromConfig memory config).1 = .error f := by
  induction configs with
  | nil => exact nofun
  | cons config configs ih =>
      intro g h
      rw [createAll] at h
      rcases hcreate : g.createFromConfig memory config with ⟨_ | ref, g₁⟩
      · rw [hcreate] at h
        cases h
        exact ⟨[], config, configs, [], g, rfl, rfl, by rw [hcreate]⟩
      · rw [hcreate] at h
        obtain ⟨before, config', behind, refs, g', rfl, hbefore, herror⟩ := ih (g := g₁) (by
          cases hrest : (g₁.createAll memory configs).1 with
          | ok refs => simp [hrest, Except.map] at h
          | error e => simpa [hrest, Except.map] using h)
        refine ⟨config :: before, config', behind, ref :: refs, g', rfl, ?_, herror⟩
        rw [createAll, hcreate]
        dsimp only
        rw [hbefore]
        rfl

theorem createAll_kind {configs : List RingConfig} {g : Registry}
    (h : (g.createAll memory configs).1 = .error f) :
    ∃ before config behind refs g', configs = before ++ config :: behind ∧
      g.createAll memory before = (.ok refs, g') ∧
      (f.kind = .outOfMemory ↔
        g'.find? config.name.text = none ∧
          memory.Withholds config.capacity config.elementSize) := by
  obtain ⟨before, config, behind, refs, g', hconfigs, hbefore, herror⟩ :=
    exists_createFromConfig_error h
  exact ⟨before, config, behind, refs, g', hconfigs, hbefore, create_kind herror⟩

end Registry

/-! ### Caches -/

/-- By itself the class of the error tells whether the memory was the reason; folded, it does
not. -/
theorem ReceiveCache.create_kind {σ : Type} [BurstSource σ] {memory : Memory} {source : σ}
    {header : CacheHeader} {size : UInt64} {locality : Locality} {e : SourceError}
    (h : create memory source header size locality = .error e) :
    (e.kind = .outOfMemory ↔ size ≠ 0 ∧ memory.grants (size.toNat * handleSize) = false) ∧
      (Failure.source e).kind = .invalidArgument := by
  refine ⟨?_, rfl⟩
  rw [create] at h
  split at h
  next hzero =>
    cases h
    exact iff_of_false nofun fun ⟨hsize, _⟩ => hsize hzero
  next hsize =>
    split at h
    · cases h
    next hgrants =>
      cases h
      exact iff_of_true rfl ⟨hsize, Bool.eq_false_iff.mpr hgrants⟩

/-! ### What the folded class tells -/

/-- **The folded class is the area's own class, except for a cache without memory.**  So a failure
has the class `outOfMemory` just if it is a ring whose storage was refused: when a ring is created,
alone, in a registry or among others, that class says that the memory was the reason.  When a cache
is created the class of the area says so, but the folded class is `invalidArgument` whatever the
reason. -/
theorem Failure.kinds_folded (f : Failure) (memory : Memory) (g : Registry) :
    (∀ k, f.innerKind? = some k → (f.kind = k ↔ ∀ size, f ≠ .source (.outOfMemory size))) ∧
    (f.kind = .outOfMemory ↔ ∃ bytes, f = .ring (.outOfMemory bytes)) ∧
    (∀ name capacity elementSize producer consumer e,
      Ring.create memory name capacity elementSize producer consumer = .error e →
        ((Failure.ring e).kind = .outOfMemory ↔ memory.Withholds capacity elementSize)) ∧
    (∀ name capacity elementSize producer consumer,
      (g.create memory name capacity elementSize producer consumer).1 = .error f →
        (f.kind = .outOfMemory ↔
          g.find? name.text = none ∧ memory.Withholds capacity elementSize)) ∧
    (∀ configs, (g.createAll memory configs).1 = .error f →
      ∃ before config behind refs g', configs = before ++ config :: behind ∧
        g.createAll memory before = (.ok refs, g') ∧
        (f.kind = .outOfMemory ↔
          g'.find? config.name.text = none ∧
            memory.Withholds config.capacity config.elementSize)) ∧
    ∀ (σ : Type) [BurstSource σ] (source : σ) header size locality e,
      ReceiveCache.create memory source header size locality = .error e →
        (e.kind = .outOfMemory ↔
          size ≠ 0 ∧ memory.grants (size.toNat * handleSize) = false) ∧
        (Failure.source e).kind = .invalidArgument :=
  ⟨fun _ => kind_eq_iff, kind_eq_outOfMemory_iff, fun _ _ _ _ _ _ => Ring.create_kind,
    fun _ _ _ _ _ => Registry.create_kind, fun _ => Registry.createAll_kind,
    fun _ _ _ _ _ _ _ => ReceiveCache.create_kind⟩

/-- A memory with nothing left refuses a ring and a cache. -/
theorem Failure.kinds_folded_nothing_left :
    (Failure.ring (.outOfMemory 32)).kind = .outOfMemory ∧
      ReceiveCache.create (.below 0) (SyntheticSource.starting ⟨0⟩) (.ofIds ⟨0⟩ ⟨0⟩) 3 .any =
        .error (.outOfMemory 3) ∧
      (SourceError.outOfMemory 3).kind = .outOfMemory ∧
      (Failure.source (.outOfMemory 3)).kind = .invalidArgument := by
  have hring : Ring.create (.below 0) ⟨"rx", by decide⟩ 4 8 .multi .single =
      .error (.outOfMemory 32) := rfl
  have hcache : ReceiveCache.create (.below 0) (SyntheticSource.starting ⟨0⟩) (.ofIds ⟨0⟩ ⟨0⟩) 3
      .any = .error (.outOfMemory 3) := rfl
  obtain ⟨-, -, rings, -, -, caches⟩ :=
    kinds_folded (.source (.outOfMemory 3)) (.below 0) .empty
  obtain ⟨hkind, hfolded⟩ := caches _ _ _ _ _ _ hcache
  exact ⟨(rings _ _ _ _ _ _ hring).mpr ⟨_, rfl, rfl⟩, hcache,
    hkind.mpr ⟨by decide, rfl⟩, hfolded⟩

/-- So a class does not always come through. -/
theorem Failure.not_forall_kind_eq_innerKind :
    ¬ ∀ f k, innerKind? f = some k → kind f = k :=
  fun h => nomatch h (.source (.outOfMemory 3)) .outOfMemory rfl

end BurstRing
