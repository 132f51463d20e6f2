import BurstRing.Proofs.Registry.Answers

/-!
# Checked settings can be instantiated

The check of settings and the creation of rings look at the same numbers.  What the one refuses of
a ring with a proper name the other refuses too (`RingSettings.RefusedAlike`); and of rings that
have passed the check, each of them held, a registry that was empty refuses only those whose
storage cannot be addressed or cannot be had (`RingConfig.Refused`).  If it refuses none then it
lists them all, and finds each of them as it was configured (`Registry.Instantiates`).

`Registry.createEach` goes on after a failure, so that every ring is attempted, and the memory at
hand may be another at each attempt.  `Registry.createAll` gives up at the first failure and
reports it (`Registry.createAll_fst`).  The main statement is `Settings.instantiated_as_checked`.
-/

namespace BurstRing

/-! ### One ring -/

namespace RingConfig

/-- Bytes of the whole storage, if that many can be addressed. -/
def bytes (config : RingConfig) : Nat := config.capacity.toNat * config.elementSize.toNat

/-- Why a ring with checked numbers is not created. -/
inductive Refused (memory : Memory) (config : RingConfig) : RingError → Prop where
  | storage (hbytes : UInt64.size ≤ config.bytes) :
      Refused memory config
        (.storageOverflow config.capacity.toNat config.elementSize.toNat)
  | memory (hbytes : config.bytes < UInt64.size) (hgrants : memory.grants config.bytes = false) :
      Refused memory config (.outOfMemory config.bytes)

/-- The storage of the ring can be addressed, and can be had. -/
def Available (memory : Memory) (config : RingConfig) : Prop :=
  config.bytes < UInt64.size ∧ memory.grants config.bytes = true

instance (memory : Memory) (config : RingConfig) : Decidable (config.Available memory) :=
  inferInstanceAs (Decidable (_ ∧ _))

/-- The outcome of an attempt at the ring is a failure if there is a reason, and then for that
reason. -/
def FailsAsRefused (memory : Memory) (config : RingConfig) (outcome : Except Failure RingRef) :
    Prop :=
  ∀ e, outcome = .error e ↔ ∃ cause, config.Refused memory cause ∧ e = .ring cause

variable {memory : Memory} {config : RingConfig} {e : RingError}

theorem Refused.create_eq (h : config.Refused memory e) (hchecked : config.Checked) :
    Ring.create memory config.name config.capacity config.elementSize config.producer
      config.consumer = .error e := by
  cases h with
  | storage hbytes => exact Ring.create_overflow memory hchecked (Nat.not_lt.mpr hbytes)
  | memory hbytes hgrants => exact Ring.create_refused hchecked hbytes hgrants

theorem Available.create_ok (h : config.Available memory) (hchecked : config.Checked) :
    ∃ ring, Ring.create memory config.name config.capacity config.elementSize config.producer
      config.consumer = .ok ring ∧ config.Builds ring :=
  Ring.create_granted hchecked h.1 h.2

theorem refused_of_not_available (h : ¬ config.Available memory) :
    ∃ e, config.Refused memory e := by
  by_cases hbytes : config.bytes < UInt64.size
  · exact ⟨_, .memory hbytes (Bool.eq_false_iff.mpr fun hgrants => h ⟨hbytes, hgrants⟩)⟩
  · exact ⟨_, .storage (Nat.not_lt.mp hbytes)⟩

theorem Checked.create_error_iff (hchecked : config.Checked) :
    Ring.create memory config.name config.capacity config.elementSize config.producer
      config.consumer = .error e ↔ config.Refused memory e := by
  refine ⟨fun h => ?_, fun h => h.create_eq hchecked⟩
  by_cases havailable : config.Available memory
  · obtain ⟨ring, hring, -⟩ := havailable.create_ok hchecked
    rw [hring] at h
    cases h
  · obtain ⟨e', he'⟩ := refused_of_not_available havailable
    rw [he'.create_eq hchecked] at h
    exact Except.error.inj h ▸ he'

end RingConfig

/-! ### What is checked and what is created -/

namespace Ring

variable (memory : Memory) (name : RingName) {capacity elementSize : UInt64}
  (producer consumer : SyncMode)

theorem create_invalidCapacity (elementSize : UInt64)
    (h : ¬ (isPowerOfTwo capacity.toNat = true ∧ capacity.toNat ≤ maxCapacity)) :
    create memory name capacity elementSize producer consumer =
      .error (.invalidCapacity capacity.toNat minCapacity maxCapacity) := by
  rw [create, Shape.ofWords, dif_neg h]
  rfl

theorem create_invalidElementSize
    (hcapacity : isPowerOfTwo capacity.toNat = true ∧ capacity.toNat ≤ maxCapacity)
    (h : ¬ (elementSize.toNat ≠ 0 ∧ elementSize.toNat % 4 = 0)) :
    create memory name capacity elementSize producer consumer =
      .error (.invalidElementSize elementSize.toNat) := by
  rw [create, Shape.ofWords, dif_pos hcapacity, dif_neg h]
  rfl

end Ring

namespace RingSettings

/-- The check of a ring and its creation refuse the same numbers. -/
structure RefusedAlike (s : RingSettings) (index : Nat) (name : RingName) (memory : Memory) :
    Prop where
  capacity : (∃ reason, s.validate index =
      .error (.invalidValue "capacity" (toString s.capacity.toNat) reason)) ↔
    Ring.create memory name s.capacity s.elementSize s.producer s.consumer =
      .error (.invalidCapacity s.capacity.toNat minCapacity maxCapacity)
  elementSize : (∃ reason, s.validate index =
      .error (.invalidValue "element_size" (toString s.elementSize.toNat) reason)) ↔
    Ring.create memory name s.capacity s.elementSize s.producer s.consumer =
      .error (.invalidElementSize s.elementSize.toNat)
  /-- The check finds fault with nothing else. -/
  fault : ∀ e, s.validate index = .error e → ∃ field value reason,
    e = .invalidValue field value reason ∧ (field = "capacity" ∨ field = "element_size")

variable {s : RingSettings} {name : RingName}

theorem validate_invalidCapacity (index : Nat) (hname : RingName.ofString s.name = .ok name)
    (h : ¬ (isPowerOfTwo s.capacity.toNat = true ∧ s.capacity.toNat ≤ maxCapacity)) :
    ∃ reason, s.validate index =
      .error (.invalidValue "capacity" (toString s.capacity.toNat) reason) := by
  rw [validate, hname]
  exact ⟨_, if_pos (by simpa [imp_iff_not_or] using h)⟩

theorem validate_invalidElementSize (index : Nat) (hname : RingName.ofString s.name = .ok name)
    (hcapacity : isPowerOfTwo s.capacity.toNat = true ∧ s.capacity.toNat ≤ maxCapacity)
    (h : ¬ (s.elementSize.toNat ≠ 0 ∧ s.elementSize.toNat % 4 = 0)) :
    ∃ reason, s.validate index =
      .error (.invalidValue "element_size" (toString s.elementSize.toNat) reason) := by
  have hwidth : (s.elementSize.toNat == 0 || s.elementSize.toNat % 4 != 0) = true := by
    simpa [or_iff_not_imp_left] using h
  rw [validate, hname]
  exact ⟨_, (if_neg (by simpa using hcapacity)).trans (if_pos hwidth)⟩

theorem validate_ok (index : Nat) (hname : RingName.ofString s.name = .ok name)
    (hcapacity : isPowerOfTwo s.capacity.toNat = true ∧ s.capacity.toNat ≤ maxCapacity)
    (hwidth : s.elementSize.toNat ≠ 0 ∧ s.elementSize.toNat % 4 = 0) :
    s.validate index = .ok ⟨name, s.capacity, s.elementSize, s.producer, s.consumer⟩ := by
  rw [validate, hname]
  refine (if_neg (by simpa using hcapacity)).trans (if_neg ?_)
  simpa using hwidth

theorem refusedAlike (index : Nat) (hname : RingName.ofString s.name = .ok name)
    (memory : Memory) : s.RefusedAlike index name memory := by
  by_cases hcapacity : isPowerOfTwo s.capacity.toNat = true ∧ s.capacity.toNat ≤ maxCapacity
  · by_cases hwidth : s.elementSize.toNat ≠ 0 ∧ s.elementSize.toNat % 4 = 0
    · have hvalidate := validate_ok index hname hcapacity hwidth
      have hchecked : RingConfig.Checked
          ⟨name, s.capacity, s.elementSize, s.producer, s.consumer⟩ :=
        ⟨hcapacity.1, hcapacity.2, hwidth.1, hwidth.2⟩
      refine ⟨?_, ?_, fun e he => by rw [hvalidate] at he; cases he⟩
      · rw [hvalidate, hchecked.create_error_iff]
        exact ⟨nofun, nofun⟩
      · rw [hvalidate, hchecked.create_error_iff]
        exact ⟨nofun, nofun⟩
    · obtain ⟨reason, hvalidate⟩ := validate_invalidElementSize index hname hcapacity hwidth
      have hcreate :=
        Ring.create_invalidElementSize memory name s.producer s.consumer hcapacity hwidth
      refine ⟨by simp [hvalidate, hcreate], by simp [hvalidate, hcreate], fun e he => ?_⟩
      exact ⟨_, _, _, (Except.error.inj (hvalidate.symm.trans he)).symm, .inr rfl⟩
  · obtain ⟨reason, hvalidate⟩ := validate_invalidCapacity index hname hcapacity
    have hcreate :=
      Ring.create_invalidCapacity memory name s.producer s.consumer s.elementSize hcapacity
    refine ⟨by simp [hvalidate, hcreate], by simp [hvalidate, hcreate], fun e he => ?_⟩
    exact ⟨_, _, _, (Except.error.inj (hvalidate.symm.trans he)).symm, .inl rfl⟩

end RingSettings

/-! ### All rings of a configuration -/

namespace Registry

/-- Attempts at all rings in turn, whatever becomes of each; whoever asked for them holds those that
are created.  `memory` is the memory at hand at each of the attempts. -/
def createEach (memory : RingName → Memory) (configs : List RingConfig) (g : Registry) :
    List (Except Failure RingRef) × Registry :=
  match configs with
  | [] => ([], g)
  | config :: rest =>
    let (outcome, g) := g.createFromConfig (memory config.name) config
    let (outcomes, g) := createEach memory rest g
    (outcome :: outcomes, g)

/-- To stop at the first failure is to report the first of all. -/
theorem createAll_fst (memory : Memory) (configs : List RingConfig) :
    ∀ g : Registry, (g.createAll memory configs).1 =
      (g.createEach (fun _ => memory) configs).1.mapM id := by
  induction configs with
  | nil => intro g; rfl
  | cons config configs ih =>
      intro g
      rw [createAll, createEach]
      rcases g.createFromConfig memory config with ⟨_ | ref, g'⟩
      · rfl
      · dsimp only
        rw [List.mapM_cons, ih]
        rfl

/-- The rings of `built` are there, and each is found under its name; no other name is known. -/
structure HasBuilt (built : List RingConfig) (g : Registry) : Prop where
  found : ∀ config ∈ built, ∃ ref ring, g.find? config.name.text = some ref ∧
    g.ring? ref = some ring ∧ config.Builds ring
  known : ∀ name ref, g.names[name]? = some ref → ∃ config ∈ built, config.name.text = name

variable {g : Registry} {built : List RingConfig} {config : RingConfig}

theorem hasBuilt_empty : empty.HasBuilt [] where
  found := nofun
  known name ref h := by
    rw [empty, Std.TreeMap.getElem?_emptyc] at h
    cases h

theorem HasBuilt.free (h : g.HasBuilt built) (hnew : ∀ other ∈ built, other.name ≠ config.name) :
    g.names[config.name.text]? = none := by
  cases hname : g.names[config.name.text]? with
  | none => rfl
  | some ref =>
      obtain ⟨other, hmem, heq⟩ := h.known _ _ hname
      exact absurd (RingName.eq_of_text heq) (hnew other hmem)

theorem HasBuilt.create (h : g.HasBuilt built) (hnew : ∀ other ∈ built, other.name ≠ config.name)
    {ring : Ring} (hbuilds : config.Builds ring) :
    HasBuilt (built ++ [config])
      ⟨g.rings.push ⟨ring, 1⟩, g.names.insert config.name.text ⟨g.rings.size⟩⟩ := by
  refine ⟨fun other hmem => ?_, fun name ref hname => ?_⟩
  · rcases List.mem_append.mp hmem with hold | hlast
    · obtain ⟨ref, other', hfind, hring, hbuilds'⟩ := h.found other hold
      rw [find?, Option.filter_eq_some_iff] at hfind
      refine ⟨ref, other', ?_, ring?_push hring _ _, hbuilds'⟩
      rw [find?, Option.filter_eq_some_iff, getElem?_names_insert (hnew other hold).symm]
      exact ⟨hfind.1, exists_ring?_iff.mp ⟨other', ring?_push hring _ _⟩⟩
    · rw [List.mem_singleton.mp hlast]
      exact ⟨_, ring, find?_insert ring, ring?_push_size .., hbuilds⟩
  · rw [Std.TreeMap.getElem?_insert] at hname
    split at hname
    · rename_i heq
      exact ⟨config, by simp, Std.LawfulEqCmp.eq_of_compare heq⟩
    · obtain ⟨other, hold, heq⟩ := h.known name ref hname
      exact ⟨other, List.mem_append_left _ hold, heq⟩

/-- Every attempt fails for the reasons there are, or the ring is built. -/
theorem createEach_built (memory : RingName → Memory) {configs : List RingConfig}
    (hchecked : ∀ config ∈ configs, config.Checked) :
    ∀ {built : List RingConfig} {g : Registry}, g.HasBuilt built →
      ((built ++ configs).map RingConfig.name).Nodup →
      List.Forall₂ (fun config => config.FailsAsRefused (memory config.name)) configs
        (g.createEach memory configs).1 ∧
      (g.createEach memory configs).2.HasBuilt
        (built ++ configs.filter fun config => config.Available (memory config.name)) := by
  induction configs with
  | nil => intro built g h _; exact ⟨.nil, by rwa [List.filter_nil, List.append_nil]⟩
  | cons config configs ih =>
      intro built g h hnames
      rw [List.forall_mem_cons] at hchecked
      have hnew : ∀ other ∈ built, other.name ≠ config.name := by
        intro other hmem
        rw [List.map_append, List.nodup_append] at hnames
        exact hnames.2.2 _ (List.mem_map_of_mem hmem) _ List.mem_cons_self
      rw [createEach]
      dsimp only
      by_cases havailable : config.Available (memory config.name)
      · obtain ⟨ring, hring, hbuilds⟩ := havailable.create_ok hchecked.1
        rw [createFromConfig_eq (h.free hnew) hring]
        have hnames' : ((built ++ [config] ++ configs).map RingConfig.name).Nodup := by
          rwa [List.append_assoc]
        obtain ⟨houtcomes, hbuilt⟩ := ih hchecked.2 (h.create hnew hbuilds) hnames'
        refine ⟨.cons (fun e => ⟨nofun, ?_⟩) houtcomes, ?_⟩
        · rintro ⟨cause, hrefused, -⟩
          rw [hrefused.create_eq hchecked.1] at hring
          cases hring
        · rw [List.filter_cons_of_pos (by simpa using havailable), List.append_cons]
          exact hbuilt
      · obtain ⟨cause, hrefused⟩ := RingConfig.refused_of_not_available havailable
        rw [createFromConfig_error (h.free hnew) (hrefused.create_eq hchecked.1)]
        have hnames' : ((built ++ configs).map RingConfig.name).Nodup :=
          hnames.sublist (((List.sublist_cons_self _ _).append_left _).map _)
        obtain ⟨houtcomes, hbuilt⟩ := ih hchecked.2 h hnames'
        refine ⟨.cons (fun e => ⟨fun he => ⟨cause, hrefused, (Except.error.inj he).symm⟩, ?_⟩)
          houtcomes, ?_⟩
        · rintro ⟨cause', hrefused', rfl⟩
          have heq := (hrefused.create_eq hchecked.1).symm.trans (hrefused'.create_eq hchecked.1)
          rw [Except.error.inj heq]
        · rw [List.filter_cons_of_neg (by simpa using havailable)]
          exact hbuilt

/-- The rings that were attempted, once it is known that all of them were created. -/
theorem available_of_created {memory : RingName → Memory} {configs : List RingConfig}
    {outcomes : List (Except Failure RingRef)}
    (h : List.Forall₂ (fun config => config.FailsAsRefused (memory config.name)) configs outcomes) :
    (∀ outcome ∈ outcomes, ∃ ref, outcome = .ok ref) →
      ∀ config ∈ configs, config.Available (memory config.name) := by
  induction h with
  | nil => exact fun _ => nofun
  | cons hfirst _ ih =>
      intro hcreated
      rw [List.forall_mem_cons] at hcreated ⊢
      refine ⟨?_, ih hcreated.2⟩
      by_contra havailable
      obtain ⟨cause, hrefused⟩ := RingConfig.refused_of_not_available havailable
      obtain ⟨ref, href⟩ := hcreated.1
      rw [(hfirst _).mpr ⟨cause, hrefused, rfl⟩] at href
      cases href

theorem HasBuilt.list_perm (h : g.HasBuilt built) (hnames : (built.map RingConfig.name).Nodup) :
    g.list.Perm (built.map fun config => config.name.text) := by
  have htexts : (built.map fun config => config.name.text).Nodup := by
    have hinj := hnames.map (f := RingName.text) fun _ _ => RingName.eq_of_text
    rwa [List.map_map] at hinj
  refine (List.perm_ext_iff_of_nodup g.sorted_list.nodup htexts).mpr fun name => ?_
  rw [mem_list, List.mem_map]
  constructor
  · rintro ⟨ref, hfind⟩
    rw [find?, Option.filter_eq_some_iff] at hfind
    exact h.known name ref hfind.1
  · rintro ⟨config, hmem, rfl⟩
    obtain ⟨ref, -, hfind, -⟩ := h.found config hmem
    exact ⟨ref, hfind⟩

end Registry

namespace RingConfig

/-- The ring is as it was configured, and there is nothing in it. -/
structure DescribesEmpty (config : RingConfig) (ring : Ring) : Prop where
  name : ring.name = config.name
  capacity : ring.capacity = config.capacity.toNat
  elementSize : ring.elementSize = config.elementSize.toNat
  producer : ring.producerMode = config.producer
  consumer : ring.consumerMode = config.consumer
  isEmpty : ring.isEmpty = true

theorem Builds.describesEmpty {config : RingConfig} {ring : Ring} (h : config.Builds ring) :
    config.DescribesEmpty ring := by
  obtain ⟨shape, hcapacity, hwidth, -, rfl⟩ := h
  refine ⟨rfl, hcapacity, hwidth, rfl, rfl, ?_⟩
  simp [Ring.isEmpty, Ring.count, Ring.ofShape, RingState.startingAt, RingState.count,
    Cursors.startingAt]

end RingConfig

namespace Registry

/-- What comes of attempts at all rings in turn, if the registry was empty. -/
structure Instantiates (memory : RingName → Memory) (configs : List RingConfig) : Prop where
  /-- An attempt fails if the storage of its ring cannot be addressed, or cannot be had, and of
  nothing else. -/
  outcomes : List.Forall₂ (fun config => config.FailsAsRefused (memory config.name)) configs
    (empty.createEach memory configs).1
  /-- To stop at the first failure is to report the first of all. -/
  stopping : ∀ m, (∀ name, memory name = m) →
    (empty.createAll m configs).1 = (empty.createEach memory configs).1.mapM id
  sorted : (empty.createEach memory configs).2.list.Pairwise (· < ·)
  /-- If all rings are created, no name is missing. -/
  listed : (∀ outcome ∈ (empty.createEach memory configs).1, ∃ ref, outcome = .ok ref) →
    (empty.createEach memory configs).2.list.Perm (configs.map fun config => config.name.text)
  /-- And each name finds its ring. -/
  found : (∀ outcome ∈ (empty.createEach memory configs).1, ∃ ref, outcome = .ok ref) →
    ∀ config ∈ configs, ∃ ref ring,
      ((empty.createEach memory configs).2.lookup config.name.text).1 = some ref ∧
      (empty.createEach memory configs).2.ring? ref = some ring ∧ config.DescribesEmpty ring

theorem instantiates (memory : RingName → Memory) {configs : List RingConfig}
    (hchecked : ∀ config ∈ configs, config.Checked)
    (hnames : (configs.map RingConfig.name).Nodup) : Instantiates memory configs := by
  obtain ⟨houtcomes, hbuilt⟩ := createEach_built memory hchecked hasBuilt_empty hnames
  -- Where all are created the filter keeps all.
  have hall : (∀ outcome ∈ (empty.createEach memory configs).1, ∃ ref, outcome = .ok ref) →
      (empty.createEach memory configs).2.HasBuilt configs := by
    intro hcreated
    rwa [List.nil_append, List.filter_eq_self.mpr fun config hmem =>
      decide_eq_true (available_of_created houtcomes hcreated config hmem)] at hbuilt
  refine ⟨houtcomes, fun m hm => ?_, sorted_list _,
    fun hcreated => (hall hcreated).list_perm hnames, fun hcreated config hmem => ?_⟩
  · rw [createAll_fst, funext hm]
  · obtain ⟨ref, ring, hfind, hring, hbuilds⟩ := (hall hcreated).found config hmem
    exact ⟨ref, ring, lookup_fst.trans hfind, hring, hbuilds.describesEmpty⟩

end Registry

namespace Settings

/-- **Checked settings can be instantiated.**  The rings of settings that pass the check are
created one after the other, whatever memory there is at each: only the storage can be a reason not
to.  And the numbers that the check of a ring refuses are those that its creation refuses. -/
theorem instantiated_as_checked :
    (∀ {s : Settings} {config : Config}, s.validate = .ok config →
      ∀ memory, Registry.Instantiates memory config.rings) ∧
    ∀ (ring : RingSettings) (index : Nat) {name : RingName},
      RingName.ofString ring.name = .ok name → ∀ memory, ring.RefusedAlike index name memory := by
  refine ⟨fun h memory => ?_, fun ring index name hname => RingSettings.refusedAlike index hname⟩
  have hchecked := checked_of_validate h
  exact Registry.instantiates memory hchecked.rings hchecked.names

/-- Two rings, not in the order of their names. -/
def rxAndRecords : Settings :=
  ⟨[⟨"rx-to-worker", 256, 8, .multi, .single⟩, ⟨"records", 32, 16, .single, .single⟩], ⟨8, 16⟩,
    ⟨32, none⟩⟩

/-- A ring with a number of slots that no ring has. -/
def threeSlots : RingSettings := ⟨"three", 3, 8, .multi, .multi⟩

theorem instantiated_as_checked_rxAndRecords :
    ∃ config, rxAndRecords.validate = .ok config ∧
      (Registry.empty.createEach (fun _ => .below 4096) config.rings).1 = [.ok ⟨0⟩, .ok ⟨1⟩] ∧
      (Registry.empty.createEach (fun _ => .below 4096) config.rings).2.list.Perm
        ["rx-to-worker", "records"] ∧
      ∃ reason, threeSlots.validate 0 = .error (.invalidValue "capacity" "3" reason) := by
  obtain ⟨config, hconfig, hrings⟩ : ∃ config, rxAndRecords.validate = .ok config ∧ config.rings =
      [⟨⟨"rx-to-worker", by decide⟩, 256, 8, .multi, .single⟩,
        ⟨⟨"records", by decide⟩, 32, 16, .single, .single⟩] := ⟨_, rfl, rfl⟩
  have hcreated : (Registry.empty.createEach (fun _ => .below 4096) config.rings).1 =
      [.ok ⟨0⟩, .ok ⟨1⟩] := by
    rw [hrings]
    decide +kernel
  refine ⟨config, hconfig, hcreated, ?_, ?_⟩
  · have hlisted := (instantiated_as_checked.1 hconfig fun _ => .below 4096).listed
    rw [hcreated, hrings] at hlisted
    exact hrings ▸ hlisted (by simp)
  · exact (instantiated_as_checked.2 threeSlots 0 rfl (.below 4096)).capacity.mpr rfl

end Settings

end BurstRing
