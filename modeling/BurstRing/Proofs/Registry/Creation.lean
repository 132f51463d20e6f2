import BurstRing.Proofs.Config.Checked
import BurstRing.Registry
import Mathlib.Data.List.Forall2
import Mathlib.Tactic.ByContra

/-!
# Creating all rings of a configuration

A checked configuration leaves two things to be seen when its rings are created: whether the
storage can be addressed, and whether it can be had.  If both hold of every ring then all of them
are created, because their names differ (`Registry.createAll_ok`); and if the storage of one cannot
be addressed then that is the failure that is reported (`Registry.createAll_overflow`).
-/

namespace BurstRing

/-! ### One ring -/

/-- The storage of the ring can be addressed by a word. -/
def RingConfig.Addressable (config : RingConfig) : Prop :=
  config.capacity.toNat * config.elementSize.toNat < UInt64.size

instance (config : RingConfig) : Decidable config.Addressable :=
  inferInstanceAs (Decidable (_ < _))

/-- The ring is what the configuration describes, and nothing has been stored in it. -/
def RingConfig.Builds (config : RingConfig) (ring : Ring) : Prop :=
  ∃ shape : Shape, shape.capacity = config.capacity.toNat ∧
    shape.elementSize = config.elementSize.toNat ∧ shape.overflow = .wrapping ∧
    ring = .ofShape config.name shape config.producer config.consumer

/-- Checked numbers whose product can be addressed make a shape. -/
theorem RingConfig.Checked.exists_shape {config : RingConfig} (hchecked : config.Checked)
    (hbytes : config.Addressable) :
    ∃ shape : Shape, Shape.ofWords config.capacity config.elementSize = .ok shape ∧
      shape.capacity = config.capacity.toNat ∧ shape.elementSize = config.elementSize.toNat ∧
      shape.overflow = .wrapping := by
  refine ⟨⟨config.capacity.toNat, config.elementSize.toNat, hchecked.capacity_pow,
    hchecked.capacity_le, hchecked.elementSize_pos, hchecked.elementSize_mod, hbytes, .wrapping⟩, ?_,
    rfl, rfl, rfl⟩
  rw [Shape.ofWords, dif_pos ⟨hchecked.capacity_pow, hchecked.capacity_le⟩,
    dif_pos ⟨hchecked.elementSize_pos, hchecked.elementSize_mod⟩]
  exact dif_pos hbytes

theorem Ring.create_granted {memory : Memory} {config : RingConfig} (hchecked : config.Checked)
    (hbytes : config.Addressable)
    (hgrants : memory.grants (config.capacity.toNat * config.elementSize.toNat) = true) :
    ∃ ring, create memory config.name config.capacity config.elementSize config.producer
      config.consumer = .ok ring ∧ config.Builds ring := by
  obtain ⟨shape, hwords, hcapacity, hwidth, hbuild⟩ := hchecked.exists_shape hbytes
  refine ⟨_, ?_, shape, hcapacity, hwidth, hbuild, rfl⟩
  rw [create, hwords]
  refine if_pos ?_
  rwa [Shape.bytes, hcapacity, hwidth]

theorem Ring.create_refused {memory : Memory} {config : RingConfig} (hchecked : config.Checked)
    (hbytes : config.Addressable)
    (hgrants : memory.grants (config.capacity.toNat * config.elementSize.toNat) = false) :
    create memory config.name config.capacity config.elementSize config.producer config.consumer =
      .error (.outOfMemory (config.capacity.toNat * config.elementSize.toNat)) := by
  obtain ⟨shape, hwords, hcapacity, hwidth, -⟩ := hchecked.exists_shape hbytes
  rw [← hcapacity, ← hwidth, ← Shape.bytes] at hgrants ⊢
  rw [create, hwords]
  exact if_neg (by rw [hgrants]; nofun)

theorem Ring.create_overflow (memory : Memory) {config : RingConfig} (hchecked : config.Checked)
    (hbytes : ¬ config.Addressable) :
    create memory config.name config.capacity config.elementSize config.producer config.consumer =
      .error (.storageOverflow config.capacity.toNat config.elementSize.toNat) := by
  have hwords : Shape.ofWords config.capacity config.elementSize =
      .error (.storageOverflow config.capacity.toNat config.elementSize.toNat) := by
    rw [Shape.ofWords, dif_pos ⟨hchecked.capacity_pow, hchecked.capacity_le⟩,
      dif_pos ⟨hchecked.elementSize_pos, hchecked.elementSize_mod⟩]
    exact dif_neg hbytes
  rw [create, hwords]
  rfl

/-! ### All rings -/

namespace Registry

theorem ring?_push {g : Registry} {ref : RingRef} {ring : Ring} (h : g.ring? ref = some ring)
    (held : HeldRing) (names : Std.TreeMap String RingRef) :
    ring? ⟨g.rings.push held, names⟩ ref = some ring := by
  have hlt : ref.index < g.rings.size := by
    by_contra hge
    rw [ring?, Array.getElem?_eq_none (Nat.not_lt.mp hge)] at h
    cases h
  rw [ring?, Array.getElem?_push_lt hlt, ← Array.getElem?_eq_getElem hlt]
  exact h

theorem ring?_push_size (g : Registry) (ring : Ring) (names : Std.TreeMap String RingRef) :
    ring? ⟨g.rings.push ⟨ring, 1⟩, names⟩ ⟨g.rings.size⟩ = some ring := by
  rw [ring?, Array.getElem?_push_size]
  rfl

theorem getElem?_names_insert {a b : RingName} (h : a ≠ b) (names : Std.TreeMap String RingRef)
    (ref : RingRef) : (names.insert a.text ref)[b.text]? = names[b.text]? := by
  rw [Std.TreeMap.getElem?_insert, if_neg]
  exact fun heq => h (RingName.eq_of_text (Std.LawfulEqCmp.eq_of_compare heq))

theorem find?_of_free {g : Registry} {name : String} (hfree : g.names[name]? = none) :
    g.find? name = none := by
  rw [find?, hfree]
  rfl

theorem create_eq {g : Registry} {memory : Memory} {name : RingName}
    {capacity elementSize : UInt64} {producer consumer : SyncMode} {ring : Ring}
    (hfree : g.find? name.text = none)
    (hring : Ring.create memory name capacity elementSize producer consumer = .ok ring) :
    g.create memory name capacity elementSize producer consumer = (.ok ⟨g.rings.size⟩,
      ⟨g.rings.push ⟨ring, 1⟩, g.names.insert name.text ⟨g.rings.size⟩⟩) := by
  rw [create, hfree]
  dsimp only
  rw [hring]

theorem createFromConfig_eq {memory : Memory} {config : RingConfig} {g : Registry} {ring : Ring}
    (hfree : g.names[config.name.text]? = none)
    (hring : Ring.create memory config.name config.capacity config.elementSize config.producer
      config.consumer = .ok ring) :
    g.createFromConfig memory config = (.ok ⟨g.rings.size⟩,
      ⟨g.rings.push ⟨ring, 1⟩, g.names.insert config.name.text ⟨g.rings.size⟩⟩) := by
  rw [createFromConfig]
  exact create_eq (find?_of_free hfree) hring

/-- A ring that cannot be created changes nothing. -/
theorem createFromConfig_error {memory : Memory} {config : RingConfig} {g : Registry}
    {e : RingError} (hfree : g.names[config.name.text]? = none)
    (hring : Ring.create memory config.name config.capacity config.elementSize config.producer
      config.consumer = .error e) : g.createFromConfig memory config = (.error (.ring e), g) := by
  rw [createFromConfig, create, find?_of_free hfree]
  dsimp only
  rw [hring]

variable {memory : Memory} (hmemory : ∀ bytes, memory.grants bytes = true)
include hmemory

/-- One ring more leaves the names of the others free. -/
theorem createFromConfig_ok {config : RingConfig} (hchecked : config.Checked)
    (hbytes : config.Addressable) {g : Registry} (hfree : g.names[config.name.text]? = none) :
    ∃ ref g', g.createFromConfig memory config = (.ok ref, g') ∧
      (∃ ring, g'.ring? ref = some ring ∧ config.Builds ring) ∧
      (∀ old ring, g.ring? old = some ring → g'.ring? old = some ring) ∧
      ∀ name ≠ config.name, g'.names[name.text]? = g.names[name.text]? := by
  obtain ⟨ring, hring, hbuilds⟩ := Ring.create_granted hchecked hbytes (hmemory _)
  exact ⟨_, _, createFromConfig_eq hfree hring, ⟨ring, g.ring?_push_size .., hbuilds⟩,
    fun old ring hold => ring?_push hold .., fun name hne => getElem?_names_insert hne.symm ..⟩

/-- Rings with names of their own, none of them taken, are all created. -/
theorem createAll_ok {configs : List RingConfig} (hchecked : ∀ config ∈ configs, config.Checked)
    (hbytes : ∀ config ∈ configs, config.Addressable)
    (hnames : (configs.map RingConfig.name).Nodup) :
    ∀ {g : Registry}, (∀ config ∈ configs, g.names[config.name.text]? = none) →
      ∃ refs g', g.createAll memory configs = (.ok refs, g') ∧
        (∀ old ring, g.ring? old = some ring → g'.ring? old = some ring) ∧
        List.Forall₂ (fun config ref => ∃ ring, g'.ring? ref = some ring ∧ config.Builds ring)
          configs refs := by
  induction configs with
  | nil => intro g _; exact ⟨[], g, rfl, fun _ _ h => h, .nil⟩
  | cons config configs ih =>
      -- The induction carries that the names still to come are free.
      intro g hfree
      obtain ⟨hfresh, hnames⟩ := List.nodup_cons.mp hnames
      rw [List.forall_mem_cons] at hchecked hbytes hfree
      obtain ⟨ref, g₁, hfirst, ⟨ring, hring, hbuilds⟩, hkept, hsame⟩ :=
        createFromConfig_ok hmemory hchecked.1 hbytes.1 hfree.1
      obtain ⟨refs, g₂, hrest, hkept', hall⟩ := ih hchecked.2 hbytes.2 hnames fun other hmem =>
        (hsame _ fun heq => hfresh (List.mem_map.mpr ⟨other, hmem, heq⟩)).trans (hfree.2 other hmem)
      refine ⟨ref :: refs, g₂, ?_, fun old ring hold => hkept' old ring (hkept old ring hold),
        .cons ⟨ring, hkept' ref ring hring, hbuilds⟩ hall⟩
      rw [createAll, hfirst]
      dsimp only
      rw [hrest]
      rfl

/-- Of rings that could all be had otherwise, the first whose storage cannot be addressed fails. -/
theorem createAll_overflow {configs : List RingConfig}
    (hchecked : ∀ config ∈ configs, config.Checked)
    (hnames : (configs.map RingConfig.name).Nodup)
    (hbytes : ∃ config ∈ configs, ¬ config.Addressable) :
    ∀ {g : Registry}, (∀ config ∈ configs, g.names[config.name.text]? = none) →
      ∃ capacity elementSize, (g.createAll memory configs).1 =
        .error (.ring (.storageOverflow capacity elementSize)) := by
  induction configs with
  | nil => simp at hbytes
  | cons config configs ih =>
      intro g hfree
      obtain ⟨hfresh, hnames⟩ := List.nodup_cons.mp hnames
      rw [List.forall_mem_cons] at hchecked hfree
      by_cases haddressable : config.Addressable
      · obtain ⟨ref, g₁, hfirst, -, -, hsame⟩ :=
          createFromConfig_ok hmemory hchecked.1 haddressable hfree.1
        have hrest : ∃ other ∈ configs, ¬ other.Addressable := by
          obtain ⟨other, hmem, hover⟩ := hbytes
          obtain rfl | hmem := List.mem_cons.mp hmem
          · exact absurd haddressable hover
          · exact ⟨other, hmem, hover⟩
        obtain ⟨capacity, elementSize, hfail⟩ := ih hchecked.2 hnames hrest fun other hmem =>
          (hsame _ fun heq => hfresh (List.mem_map.mpr ⟨other, hmem, heq⟩)).trans
            (hfree.2 other hmem)
        refine ⟨capacity, elementSize, ?_⟩
        rw [createAll, hfirst]
        exact congrArg (Except.map (ref :: ·)) hfail
      · have hfail := createFromConfig_error hfree.1
          (Ring.create_overflow memory hchecked.1 haddressable)
        exact ⟨_, _, by rw [createAll, hfail]⟩

end Registry

end BurstRing
