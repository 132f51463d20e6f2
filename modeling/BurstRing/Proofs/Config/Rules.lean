import BurstRing.Config.Validate
import Mathlib.Algebra.Ring.Nat
import Mathlib.Tactic.Common

/-!
# The rules that settings have to keep

Each setting has a rule and a report for when it is broken (`SettingRule`).  The rules stand in the
order in which they are checked: the loop's, the cache's, each ring's with what is asked of its name
last, and then that there is a ring (`Settings.rules`).  Checking settings reports the first rule
that is broken, and goes through if there is none; then the configuration holds what was written.

A check `Enforces` rules if it does that for them, and checks one after another enforce their rules
one after another (`Enforces.bind`).  What the rules say together is said once more without an order
(`Settings.Documented`).  The main statement is `Settings.validates_documented`.
-/

namespace BurstRing

/-! ### Rules -/

/-- Something that settings have to keep to, and what is reported if they do not. -/
structure SettingRule where
  Holds : Prop
  report : SettingError

/-- The first rule that does not hold reports `e`. -/
def FirstBroken (rules : List SettingRule) (e : SettingError) : Prop :=
  ∃ before rule after, rules = before ++ rule :: after ∧
    (∀ kept ∈ before, kept.Holds) ∧ ¬ rule.Holds ∧ rule.report = e

theorem not_firstBroken_nil (e : SettingError) : ¬ FirstBroken [] e := by
  rintro ⟨before, rule, after, hrules, -⟩
  cases before <;> cases hrules

theorem firstBroken_cons {rule : SettingRule} {rules : List SettingRule} {e : SettingError} :
    FirstBroken (rule :: rules) e ↔
      ¬ rule.Holds ∧ rule.report = e ∨ rule.Holds ∧ FirstBroken rules e := by
  constructor
  · rintro ⟨before, broken, after, hrules, hkept, hbroken, hreport⟩
    cases before with
    | nil =>
        obtain ⟨rfl, -⟩ := List.cons.inj hrules
        exact .inl ⟨hbroken, hreport⟩
    | cons kept before =>
        obtain ⟨rfl, hrest⟩ := List.cons.inj hrules
        exact .inr ⟨hkept rule List.mem_cons_self, before, broken, after, hrest,
          fun r hr => hkept r (List.mem_cons_of_mem _ hr), hbroken, hreport⟩
  · rintro (⟨hbroken, hreport⟩ | ⟨hholds, before, broken, after, rfl, hkept, hbroken, hreport⟩)
    · exact ⟨[], rule, rules, rfl, nofun, hbroken, hreport⟩
    · exact ⟨rule :: before, broken, after, rfl, List.forall_mem_cons.mpr ⟨hholds, hkept⟩, hbroken,
        hreport⟩

/-- There is one first broken rule, and none if all rules hold. -/
theorem FirstBroken.not_all {rules : List SettingRule} {e : SettingError}
    (h : FirstBroken rules e) : ¬ ∀ rule ∈ rules, rule.Holds := by
  obtain ⟨before, rule, after, rfl, -, hbroken, -⟩ := h
  exact fun hall => hbroken (hall rule (List.mem_append_right _ List.mem_cons_self))

theorem FirstBroken.unique {rules : List SettingRule} {e e' : SettingError} :
    FirstBroken rules e → FirstBroken rules e' → e = e' := by
  induction rules with
  | nil => exact fun h => (not_firstBroken_nil e h).elim
  | cons rule rules ih =>
      rw [firstBroken_cons, firstBroken_cons]
      rintro (⟨hbroken, rfl⟩ | ⟨hholds, h⟩) (⟨hbroken', rfl⟩ | ⟨hholds', h'⟩)
      · rfl
      · exact (hbroken hholds').elim
      · exact (hbroken' hholds).elim
      · exact ih h h'

/-! ### Checks -/

/-- The check reports the first of `rules` that is broken; if none is, it goes through, and what it
makes is right. -/
def Enforces {α : Type} (rules : List SettingRule) (Right : α → Prop) :
    Except SettingError α → Prop
  | .ok a => (∀ rule ∈ rules, rule.Holds) ∧ Right a
  | .error e => FirstBroken rules e

section

variable {α β : Type} {rules rules' : List SettingRule} {Right : α → Prop} {Right' : β → Prop}
  {x : Except SettingError α}

theorem Enforces.ok {a : α} (h : Right a) : Enforces [] Right (.ok a) := ⟨nofun, h⟩

/-- A rule is enforced by a check that reports it if it is broken, and else goes on. -/
theorem Enforces.cons {rule : SettingRule} (hbroken : ¬ rule.Holds → x = .error rule.report)
    (hholds : rule.Holds → Enforces rules Right x) : Enforces (rule :: rules) Right x := by
  by_cases h : rule.Holds
  · have hx := hholds h
    cases x with
    | ok a => exact ⟨List.forall_mem_cons.mpr ⟨h, hx.1⟩, hx.2⟩
    | error e => exact firstBroken_cons.mpr (.inr ⟨h, hx⟩)
  · rw [hbroken h]
    exact firstBroken_cons.mpr (.inl ⟨h, rfl⟩)

theorem Enforces.bind {f : α → Except SettingError β} (hx : Enforces rules Right x)
    (hf : ∀ a, Right a → Enforces rules' Right' (f a)) :
    Enforces (rules ++ rules') Right' (x >>= f) := by
  cases x with
  | error e =>
      obtain ⟨before, rule, after, rfl, hkept, hbroken⟩ := hx
      exact ⟨before, rule, after ++ rules', by simp, hkept, hbroken⟩
  | ok a =>
      have hnext := hf a hx.2
      change Enforces (rules ++ rules') Right' (f a)
      cases hfa : f a with
      | ok b =>
          rw [hfa] at hnext
          exact ⟨List.forall_mem_append.mpr ⟨hx.1, hnext.1⟩, hnext.2⟩
      | error e =>
          rw [hfa] at hnext
          obtain ⟨before, rule, after, rfl, hkept, hbroken⟩ := hnext
          exact ⟨rules ++ before, rule, after, by simp,
            List.forall_mem_append.mpr ⟨hx.1, hkept⟩, hbroken⟩

theorem Enforces.error_iff (h : Enforces rules Right x) (e : SettingError) :
    x = .error e ↔ FirstBroken rules e := by
  cases x with
  | ok a => exact iff_of_false nofun fun hbroken => hbroken.not_all h.1
  | error e' =>
      refine ⟨fun heq => ?_, fun hbroken => congrArg _ (h.unique hbroken)⟩
      cases heq
      exact h

theorem Enforces.exists_ok_iff (h : Enforces rules Right x) :
    (∃ a, x = .ok a) ↔ ∀ rule ∈ rules, rule.Holds := by
  cases x with
  | ok a => exact iff_of_true ⟨a, rfl⟩ h.1
  | error e => exact iff_of_false nofun h.not_all

end

/-! ### The rules for each setting -/

/-- A letter of a ring's name. -/
def IsNameLetter (c : Char) : Prop :=
  'A' ≤ c ∧ c ≤ 'Z' ∨ 'a' ≤ c ∧ c ≤ 'z' ∨ '0' ≤ c ∧ c ≤ '9' ∨ c = '_' ∨ c = '-'

namespace LoopSettings

def rules (s : LoopSettings) : List SettingRule :=
  [⟨s.flushInterval = 0 ∨ ∃ k, s.flushInterval.toNat = 2 ^ k,
      .invalidValue "flush_interval" (toString s.flushInterval.toNat)
        s!"Flush interval {s.flushInterval.toNat} must be zero or a power of two"⟩,
    ⟨1 ≤ s.burstSize.toNat ∧ s.burstSize.toNat ≤ 1024,
      .invalidValue "burst_size" (toString s.burstSize.toNat) "Must be between 1 and 1024"⟩]

end LoopSettings

namespace CacheSettings

def rules (s : CacheSettings) : List SettingRule :=
  [⟨1 ≤ s.size.toNat ∧ s.size.toNat ≤ 65535,
    .invalidValue "receive_cache.size" (toString s.size.toNat) "Must be between 1 and 65535"⟩]

end CacheSettings

namespace RingSettings

/-- What is asked of a name by itself. -/
def nameRules (name : String) : List SettingRule :=
  [⟨name ≠ "", .invalidValue "ring_name" name "Ring name cannot be empty"⟩,
    ⟨name.utf8ByteSize ≤ 32, .invalidValue "ring_name" name
      s!"Ring name too long: {name.utf8ByteSize} chars (max 32)"⟩,
    ⟨∀ c ∈ name.toList, IsNameLetter c, .invalidValue "ring_name" name
      "Ring name must contain only ASCII alphanumeric characters, hyphens, and underscores"⟩]

/-- What is asked of the numbers of the ring at place `index`. -/
def numberRules (index : Nat) (s : RingSettings) : List SettingRule :=
  [⟨(∃ k, s.capacity.toNat = 2 ^ k) ∧ s.capacity.toNat ≤ 2 ^ 28,
      .invalidValue "capacity" (toString s.capacity.toNat)
        s!"Ring {s.name} at index {index}: capacity must be a power of two no larger than 268435456"⟩,
    ⟨s.elementSize.toNat ≠ 0 ∧ 4 ∣ s.elementSize.toNat,
      .invalidValue "element_size" (toString s.elementSize.toNat)
        s!"Ring {s.name} at index {index}: element size must be a non-zero multiple of 4"⟩]

/-- The rules for rings that come behind those of `before`, ring after ring. -/
def rulesBehind (before : List RingSettings) : List RingSettings → List SettingRule
  | [] => []
  | s :: rest =>
    nameRules s.name ++ s.numberRules before.length ++
      ⟨s.name ∉ before.map name, .duplicateRing s.name⟩ :: rulesBehind (before ++ [s]) rest

end RingSettings

/-- All rules for settings, in the order in which they count. -/
def Settings.rules (s : Settings) : List SettingRule :=
  s.pipeline.rules ++ (s.cache.rules ++ (RingSettings.rulesBehind [] s.rings ++
    [⟨s.rings ≠ [], .schema "At least one ring must be defined"⟩]))

/-! ### What the rules say -/

/-- The settings of a ring are as documented. -/
structure RingSettings.Documented (s : RingSettings) : Prop where
  name_size : 1 ≤ s.name.utf8ByteSize ∧ s.name.utf8ByteSize ≤ 32
  name_letters : ∀ c ∈ s.name.toList, IsNameLetter c
  capacity : (∃ k, s.capacity.toNat = 2 ^ k) ∧ 1 ≤ s.capacity.toNat ∧ s.capacity.toNat ≤ 2 ^ 28
  elementSize : s.elementSize.toNat ≠ 0 ∧ 4 ∣ s.elementSize.toNat

/-- Settings are as documented. -/
structure Settings.Documented (s : Settings) : Prop where
  flushInterval : s.pipeline.flushInterval = 0 ∨ ∃ k, s.pipeline.flushInterval.toNat = 2 ^ k
  burstSize : 1 ≤ s.pipeline.burstSize.toNat ∧ s.pipeline.burstSize.toNat ≤ 1024
  cacheSize : 1 ≤ s.cache.size.toNat ∧ s.cache.size.toNat ≤ 65535
  some_ring : s.rings ≠ []
  rings : ∀ ring ∈ s.rings, ring.Documented
  names : (s.rings.map RingSettings.name).Nodup

namespace RingSettings

theorem forall_nameRules_iff {name : String} : (∀ rule ∈ nameRules name, rule.Holds) ↔
    (1 ≤ name.utf8ByteSize ∧ name.utf8ByteSize ≤ 32) ∧ ∀ c ∈ name.toList, IsNameLetter c := by
  have hempty : name ≠ "" ↔ 1 ≤ name.utf8ByteSize := by
    rw [Nat.one_le_iff_ne_zero, Ne, Ne, String.utf8ByteSize_eq_zero_iff]
  simp only [nameRules, List.forall_mem_cons, List.not_mem_nil, false_imp_iff, implies_true,
    and_true, hempty, and_assoc]

theorem forall_rules_iff {index : Nat} {s : RingSettings} :
    (∀ rule ∈ nameRules s.name ++ s.numberRules index, rule.Holds) ↔ s.Documented := by
  have hpos : (∃ k, s.capacity.toNat = 2 ^ k) → 1 ≤ s.capacity.toNat := by
    rintro ⟨k, hk⟩
    exact hk ▸ Nat.one_le_two_pow
  rw [List.forall_mem_append, forall_nameRules_iff]
  simp only [numberRules, List.forall_mem_cons, List.not_mem_nil, false_imp_iff, implies_true,
    and_true]
  constructor
  · rintro ⟨⟨hsize, hletters⟩, ⟨hpow, hle⟩, hwidth⟩
    exact ⟨hsize, hletters, ⟨hpow, hpos hpow, hle⟩, hwidth⟩
  · rintro ⟨hsize, hletters, ⟨hpow, -, hle⟩, hwidth⟩
    exact ⟨⟨hsize, hletters⟩, ⟨hpow, hle⟩, hwidth⟩

theorem forall_rulesBehind_iff {rest : List RingSettings} : ∀ {before : List RingSettings},
    (∀ rule ∈ rulesBehind before rest, rule.Holds) ↔ (∀ s ∈ rest, s.Documented) ∧
      (rest.map name).Nodup ∧ ∀ s ∈ rest, s.name ∉ before.map name := by
  induction rest with
  | nil => simp [rulesBehind]
  | cons s rest ih =>
      intro before
      have hother : s.name ∉ rest.map name ↔ ∀ x ∈ rest, x.name ≠ s.name := by
        simp only [List.mem_map, not_exists, not_and, ne_eq]
      rw [rulesBehind, List.forall_mem_append, forall_rules_iff, List.forall_mem_cons, ih,
        List.forall_mem_cons, List.map_cons, List.nodup_cons, List.forall_mem_cons, hother]
      simp only [List.map_append, List.map_cons, List.map_nil, List.mem_append,
        List.mem_singleton, not_or, forall_and]
      constructor
      · rintro ⟨hs, hnew, hrest, hnames, hunseen, hne⟩
        exact ⟨⟨hs, hrest⟩, ⟨hne, hnames⟩, hnew, hunseen⟩
      · rintro ⟨⟨hs, hrest⟩, ⟨hne, hnames⟩, hnew, hunseen⟩
        exact ⟨hs, hnew, hrest, hnames, hunseen, hne⟩

end RingSettings

theorem Settings.forall_rules_iff {s : Settings} :
    (∀ rule ∈ s.rules, rule.Holds) ↔ s.Documented := by
  rw [rules, List.forall_mem_append, List.forall_mem_append, List.forall_mem_append,
    RingSettings.forall_rulesBehind_iff]
  simp only [LoopSettings.rules, CacheSettings.rules, List.forall_mem_cons, List.not_mem_nil,
    List.map_nil, not_false_eq_true, false_imp_iff, implies_true, and_true]
  constructor
  · rintro ⟨⟨hflush, hburst⟩, hcache, ⟨hrings, hnames⟩, hsome⟩
    exact ⟨hflush, hburst, hcache, hsome, hrings, hnames⟩
  · rintro ⟨hflush, hburst, hcache, hsome, hrings, hnames⟩
    exact ⟨⟨hflush, hburst⟩, hcache, ⟨hrings, hnames⟩, hsome⟩

/-! ### What is made of them -/

/-- The settings of a ring as they were written. -/
def RingConfig.settings (ring : RingConfig) : RingSettings :=
  ⟨ring.name.text, ring.capacity, ring.elementSize, ring.producer, ring.consumer⟩

/-- The configuration says what `s` says. -/
structure Config.Restates (config : Config) (s : Settings) : Prop where
  rings : config.rings.map RingConfig.settings = s.rings
  flushInterval : config.pipeline.flushInterval.value = s.pipeline.flushInterval
  burstSize : config.pipeline.burstSize = s.pipeline.burstSize
  cacheSize : config.cache.size = s.cache.size
  any : s.cache.node = none → config.cache.locality = .any
  node : ∀ n, s.cache.node = some n → config.cache.locality = .node n

theorem RingConfig.settings_injective : Function.Injective RingConfig.settings := by
  rintro ⟨name, capacity, elementSize, producer, consumer⟩
    ⟨name', capacity', elementSize', producer', consumer'⟩ h
  obtain rfl : name = name' := RingName.eq_of_text (congrArg RingSettings.name h)
  cases h
  rfl

/-- Settings can be restated in one way. -/
theorem Config.Restates.unique {config config' : Config} {s : Settings} (h : config.Restates s)
    (h' : config'.Restates s) : config = config' := by
  obtain ⟨rings, ⟨⟨interval, hinterval⟩, burst⟩, ⟨size, locality⟩⟩ := config
  obtain ⟨rings', ⟨⟨interval', hinterval'⟩, burst'⟩, ⟨size', locality'⟩⟩ := config'
  obtain rfl : rings = rings' :=
    (List.map_inj_right fun _ _ heq => RingConfig.settings_injective heq).mp
      (h.rings.trans h'.rings.symm)
  obtain rfl : interval = interval' := h.flushInterval.trans h'.flushInterval.symm
  obtain rfl : burst = burst' := h.burstSize.trans h'.burstSize.symm
  obtain rfl : size = size' := h.cacheSize.trans h'.cacheSize.symm
  have hlocality : locality = locality' := by
    cases hnode : s.cache.node with
    | none => exact (h.any hnode).trans (h'.any hnode).symm
    | some n => exact (h.node n hnode).trans (h'.node n hnode).symm
  rw [hlocality]

/-! ### The checks enforce the rules -/

theorem isPowerOfTwo_iff {n : Nat} : isPowerOfTwo n = true ↔ ∃ k, n = 2 ^ k := by
  rw [isPowerOfTwo, Bool.and_eq_true, bne_iff_ne, beq_iff_eq]
  exact Nat.ne_zero_and_sub_one_eq_zero_iff_isPowerOfTwo

theorem isNameChar_iff {c : Char} : isNameChar c = true ↔ IsNameLetter c := by
  have hboth (p q : Prop) [Decidable p] [Decidable q] : (decide p && decide q) = true ↔ p ∧ q := by
    rw [Bool.and_eq_true, decide_eq_true_iff, decide_eq_true_iff]
  have hupper : c.isUpper = true ↔ 'A' ≤ c ∧ c ≤ 'Z' := decide_eq_true_iff
  have hlower : c.isLower = true ↔ 'a' ≤ c ∧ c ≤ 'z' := hboth ('a' ≤ c) (c ≤ 'z')
  have hdigit : c.isDigit = true ↔ '0' ≤ c ∧ c ≤ '9' := hboth ('0' ≤ c) (c ≤ '9')
  have halphanum : c.isAlphanum = ((c.isUpper || c.isLower) || c.isDigit) := rfl
  simp only [isNameChar, halphanum, Bool.or_eq_true, beq_iff_eq, hupper, hlower, hdigit,
    IsNameLetter, or_assoc, or_comm (a := c = '-')]

theorem FlushInterval.enforces_ofWord (interval : UInt32) :
    Enforces [⟨interval = 0 ∨ ∃ k, interval.toNat = 2 ^ k,
        .invalidValue "flush_interval" (toString interval.toNat)
          s!"Flush interval {interval.toNat} must be zero or a power of two"⟩]
      (fun f => f.value = interval)
      ((FlushInterval.ofWord interval).mapError fun e =>
        .invalidValue "flush_interval" (toString interval.toNat) e.message) := by
  have hvalid : (interval = 0 ∨ ∃ k, interval.toNat = 2 ^ k) ↔
      (interval = 0 ∨ isPowerOfTwo interval.toNat = true) := by
    rw [isPowerOfTwo_iff]
  refine Enforces.cons (fun hbroken => ?_) fun hholds => ?_
  · rw [ofWord, dif_neg (hvalid.not.mp hbroken)]
    rfl
  · rw [ofWord, dif_pos (hvalid.mp hholds)]
    exact Enforces.ok rfl

theorem LoopSettings.enforces_validate (s : LoopSettings) :
    Enforces s.rules (fun config => config.flushInterval.value = s.flushInterval ∧
      config.burstSize = s.burstSize) s.validate := by
  refine (FlushInterval.enforces_ofWord s.flushInterval).bind fun interval hvalue => ?_
  refine Enforces.cons (fun hbroken => if_neg hbroken) fun hholds => ?_
  have hburst : 1 ≤ s.burstSize.toNat ∧ s.burstSize.toNat ≤ maxBurstSize := hholds
  dsimp only
  rw [if_pos hburst]
  exact Enforces.ok ⟨hvalue, rfl⟩

theorem CacheSettings.enforces_validate (s : CacheSettings) :
    Enforces s.rules (fun config => config.size = s.size ∧
      (s.node = none → config.locality = .any) ∧
      ∀ n, s.node = some n → config.locality = .node n) s.validate := by
  refine Enforces.cons (fun hbroken => if_neg hbroken) fun hholds => ?_
  rw [show s.validate = .ok ⟨s.size, _⟩ from if_pos hholds]
  refine Enforces.ok ⟨rfl, fun hnode => ?_, fun n hnode => ?_⟩
  · rw [hnode]
  · rw [hnode]

namespace RingName

theorem ofString_of_refusal {name reason : String} (h : refusal? name = some reason) :
    ofString name = .error (.invalidValue "ring_name" name reason) := by
  unfold ofString
  split
  · rename_i hnone
    cases hnone.symm.trans h
  · rename_i reason' hsome
    cases hsome.symm.trans h
    rfl

theorem letters_iff {name : String} :
    name.toList.all isNameChar = true ↔ ∀ c ∈ name.toList, IsNameLetter c := by
  simp only [List.all_eq_true, isNameChar_iff]

theorem enforces_ofString (name : String) :
    Enforces (RingSettings.nameRules name) (fun ringName => ringName.text = name)
      (RingName.ofString name) := by
  refine Enforces.cons (fun hbroken => ofString_of_refusal ?_) fun hsome =>
    Enforces.cons (fun hbroken => ofString_of_refusal ?_) fun hshort =>
      Enforces.cons (fun hbroken => ofString_of_refusal ?_) fun hletters => ?_
  · rw [refusal?, if_pos (not_not.mp hbroken)]
  · rw [refusal?, if_neg hsome, if_pos (show maxNameBytes < _ from Nat.not_le.mp hbroken),
      String.append_assoc, String.append_assoc]
    rfl
  · rw [refusal?, if_neg hsome, if_neg (show ¬ maxNameBytes < _ from Nat.not_lt.mpr hshort),
      if_neg (mt letters_iff.mp hbroken)]
    rfl
  · rw [ofString_text ⟨name, hsome, hshort, letters_iff.mpr hletters⟩]
    exact Enforces.ok rfl

end RingName

namespace RingSettings

theorem checks_capacity_iff {n : Nat} :
    (!(isPowerOfTwo n && decide (n ≤ maxCapacity))) = true ↔
      ¬ ((∃ k, n = 2 ^ k) ∧ n ≤ 2 ^ 28) := by
  rw [Bool.not_eq_true', ← Bool.not_eq_true, Bool.and_eq_true, decide_eq_true_eq, isPowerOfTwo_iff]
  rfl

theorem checks_elementSize_iff {w : Nat} :
    (w == 0 || w % 4 != 0) = true ↔ ¬ (w ≠ 0 ∧ 4 ∣ w) := by
  rw [Bool.or_eq_true, beq_iff_eq, bne_iff_ne, Nat.dvd_iff_mod_eq_zero, not_and_or, not_not]

theorem enforces_validate (index : Nat) (s : RingSettings) :
    Enforces (nameRules s.name ++ s.numberRules index) (fun ring => ring.settings = s)
      (s.validate index) := by
  refine (RingName.enforces_ofString s.name).bind fun ringName hname => ?_
  refine Enforces.cons (fun hbroken => ?_) fun hcapacity =>
    Enforces.cons (fun hbroken => ?_) fun hwidth => ?_
  · rw [if_pos (checks_capacity_iff.mpr hbroken), hname, String.append_assoc]
    rfl
  · rw [if_neg (checks_capacity_iff.not.mpr (not_not.mpr hcapacity)),
      if_pos (checks_elementSize_iff.mpr hbroken), hname]
  · rw [if_neg (checks_capacity_iff.not.mpr (not_not.mpr hcapacity)),
      if_neg (checks_elementSize_iff.not.mpr (not_not.mpr hwidth))]
    refine Enforces.ok ?_
    rw [RingConfig.settings, hname]

theorem enforces_validateAll {rest : List RingSettings} :
    ∀ {before : List RingSettings} {seen : List RingName},
      (∀ ringName : RingName, ringName ∈ seen ↔ ringName.text ∈ before.map name) →
      Enforces (rulesBehind before rest) (fun rings => rings.map RingConfig.settings = rest)
        (validateAll before.length seen rest) := by
  induction rest with
  | nil => intro before seen _; exact Enforces.ok rfl
  | cons s rest ih =>
      intro before seen hseen
      refine (s.enforces_validate before.length).bind fun ring hring => ?_
      have hname : ring.name.text = s.name := congrArg name hring
      have hnew : ring.name ∈ seen ↔ s.name ∈ before.map name := hname ▸ hseen ring.name
      refine Enforces.cons (fun hbroken => ?_) fun hholds => ?_
      · rw [if_pos (hnew.mpr (not_not.mp hbroken)), hname]
      · rw [if_neg (hnew.not.mpr hholds)]
        have hseen' : ∀ ringName : RingName,
            ringName ∈ ring.name :: seen ↔ ringName.text ∈ (before ++ [s]).map name := by
          intro ringName
          have hsame : ringName = ring.name ↔ ringName.text = ring.name.text :=
            ⟨congrArg RingName.text, RingName.eq_of_text⟩
          rw [List.mem_cons, hseen, List.map_append, List.mem_append, or_comm, List.map_singleton,
            List.mem_singleton, ← hname, hsame]
        have hrest := ih hseen'
        rw [List.length_append] at hrest
        rw [← List.append_nil (rulesBehind (before ++ [s]) rest)]
        refine hrest.bind fun rings hrings => Enforces.ok ?_
        rw [List.map_cons, hring, hrings]

end RingSettings

theorem Settings.enforces_validate (s : Settings) :
    Enforces s.rules (fun config => config.Restates s) s.validate := by
  refine s.pipeline.enforces_validate.bind fun pipeline hpipeline => ?_
  refine s.cache.enforces_validate.bind fun cache hcache => ?_
  have hrings : Enforces (RingSettings.rulesBehind [] s.rings)
      (fun rings => rings.map RingConfig.settings = s.rings)
      (RingSettings.validateAll 0 [] s.rings) :=
    RingSettings.enforces_validateAll fun ringName => iff_of_false nofun nofun
  refine hrings.bind fun rings hrings => ?_
  have hsome : rings.isEmpty = true ↔ ¬ s.rings ≠ [] := by
    rw [List.isEmpty_iff, not_not, ← hrings, List.map_eq_nil_iff]
  refine Enforces.cons (fun hbroken => if_pos (hsome.mpr hbroken)) fun hholds => ?_
  rw [if_neg (hsome.not.mpr (not_not.mpr hholds))]
  exact Enforces.ok ⟨hrings, hpipeline.1, hpipeline.2, hcache.1, hcache.2.1, hcache.2.2⟩

/-- **Settings and their rules.**  Whatever is written: a configuration is made of it exactly if it
is as documented, and then it is the one that says the same, ring after ring; if it is not, the
report is that of the first rule that is broken, and no other. -/
theorem Settings.validates_documented (s : Settings) :
    (∀ config, s.validate = .ok config ↔ s.Documented ∧ config.Restates s) ∧
    ((∃ config, s.validate = .ok config) ↔ s.Documented) ∧
    (∀ e, s.validate = .error e ↔ FirstBroken s.rules e) ∧
    ((∀ rule ∈ s.rules, rule.Holds) ↔ s.Documented) := by
  have h := s.enforces_validate
  have hok : (∃ config, s.validate = .ok config) ↔ s.Documented :=
    h.exists_ok_iff.trans forall_rules_iff
  refine ⟨fun config => ⟨fun hconfig => ?_, ?_⟩, hok, h.error_iff, forall_rules_iff⟩
  · rw [hconfig] at h
    exact ⟨forall_rules_iff.mp h.1, h.2⟩
  · rintro ⟨hdocumented, hrestates⟩
    obtain ⟨config', hconfig⟩ := hok.mpr hdocumented
    rw [hconfig] at h ⊢
    exact congrArg _ (h.2.unique hrestates)

/-- The name of the second ring is taken, but its width is looked at before that. -/
example :
    RingSettings.validateAll 0 [] [⟨"rx", 8, 8, .single, .single⟩, ⟨"rx", 8, 6, .single, .single⟩] =
      .error (.invalidValue "element_size" "6"
        "Ring rx at index 1: element size must be a non-zero multiple of 4") := by
  rfl

end BurstRing
