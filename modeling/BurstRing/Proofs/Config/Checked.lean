import BurstRing.Config.Validate
import BurstRing.Ring.Shape

/-!
# What checked settings are good for

Settings that pass the check make a configuration whose rings have names of their own and numbers
that a shape can have, and whose cache holds at least one handle (`Config.Checked`).  Only the
product of a ring's numbers is left open: whether the storage can be addressed shows when the ring
is created.
-/

namespace BurstRing

/-- The numbers of a ring are those of a shape, up to their product. -/
structure RingConfig.Checked (ring : RingConfig) : Prop where
  capacity_pow : isPowerOfTwo ring.capacity.toNat = true
  capacity_le : ring.capacity.toNat ≤ maxCapacity
  elementSize_pos : ring.elementSize.toNat ≠ 0
  elementSize_mod : ring.elementSize.toNat % 4 = 0

/-- What the check of settings makes sure of. -/
structure Config.Checked (config : Config) : Prop where
  names : (config.rings.map RingConfig.name).Nodup
  rings : ∀ ring ∈ config.rings, ring.Checked
  cache : 1 ≤ config.cache.size.toNat ∧ config.cache.size.toNat ≤ maxCacheSize

theorem bind_eq_ok {α β ε : Type} {x : Except ε α} {f : α → Except ε β} {b : β}
    (h : x >>= f = .ok b) : ∃ a, x = .ok a ∧ f a = .ok b := by
  cases x with
  | error e => cases h
  | ok a => exact ⟨a, rfl, h⟩

theorem CacheSettings.size_of_validate {s : CacheSettings} {cache : CacheConfig}
    (h : s.validate = .ok cache) : 1 ≤ cache.size.toNat ∧ cache.size.toNat ≤ maxCacheSize := by
  rw [validate] at h
  split at h
  · cases h
    assumption
  · cases h

namespace RingSettings

theorem checked_of_validate {index : Nat} {s : RingSettings} {ring : RingConfig}
    (h : s.validate index = .ok ring) : ring.Checked := by
  rw [validate] at h
  obtain ⟨name, -, h⟩ := bind_eq_ok h
  dsimp only at h
  split at h
  · cases h
  · rename_i hcapacity
    split at h
    · cases h
    · rename_i hwidth
      cases h
      simp only [Bool.not_eq_true', Bool.not_eq_false, Bool.and_eq_true, decide_eq_true_eq]
        at hcapacity
      simp only [Bool.or_eq_true, beq_iff_eq, bne_iff_ne, ne_eq, not_or,
        Decidable.not_not] at hwidth
      exact ⟨hcapacity.1, hcapacity.2, hwidth.1, hwidth.2⟩

/-- Rings that pass have names of their own. -/
theorem checked_of_validateAll {settings : List RingSettings} :
    ∀ {index : Nat} {seen : List RingName} {rings : List RingConfig},
      validateAll index seen settings = .ok rings →
      (rings.map RingConfig.name).Nodup ∧ ∀ ring ∈ rings, ring.name ∉ seen ∧ ring.Checked := by
  induction settings with
  | nil =>
      intro index seen rings h
      cases h
      exact ⟨List.nodup_nil, fun ring hmem => absurd hmem List.not_mem_nil⟩
  | cons s settings ih =>
      intro index seen rings h
      rw [validateAll] at h
      obtain ⟨first, hfirst, h⟩ := bind_eq_ok h
      split at h
      · cases h
      · rename_i hunseen
        obtain ⟨rest, hrest, h⟩ := bind_eq_ok h
        cases h
        -- The rings behind were checked against the first name as one that has been seen.
        obtain ⟨hnames, hrings⟩ := ih hrest
        refine ⟨List.nodup_cons.mpr ⟨fun hmem => ?_, hnames⟩, fun ring hmem => ?_⟩
        · obtain ⟨ring, hring, hname⟩ := List.mem_map.mp hmem
          exact (hrings ring hring).1 (hname ▸ List.mem_cons_self)
        · obtain rfl | hmem := List.mem_cons.mp hmem
          · exact ⟨hunseen, checked_of_validate hfirst⟩
          · exact ⟨fun hseen => (hrings ring hmem).1 (List.mem_cons_of_mem _ hseen),
              (hrings ring hmem).2⟩

end RingSettings

theorem Settings.checked_of_validate {s : Settings} {config : Config}
    (h : s.validate = .ok config) : config.Checked := by
  rw [validate] at h
  obtain ⟨pipeline, -, h⟩ := bind_eq_ok h
  obtain ⟨cache, hcache, h⟩ := bind_eq_ok h
  obtain ⟨rings, hrings, h⟩ := bind_eq_ok h
  obtain ⟨hnames, hchecked⟩ := RingSettings.checked_of_validateAll hrings
  split at h
  · cases h
  · cases h
    exact ⟨hnames, fun ring hmem => (hchecked ring hmem).2,
      CacheSettings.size_of_validate hcache⟩

end BurstRing
