import Mathlib.Data.List.Nodup
import BurstRing.Proofs.Registry.Creation
import BurstRing.Proofs.Run.Balance

/-!
# Sessions begin

A session of a checked configuration begins if there is a ring of handles that takes so many
producers and all storage can be had (`Session.prepare_ok`).  The first ring of handles that is
described is the one to drive, sources with identifiers of their own are all subscribed
(`LinkCounts.subscribeAll_ok`), and every worker finds what it asks for.
-/

namespace BurstRing

/-! ### The ring to drive -/

/-- The first ring of handles that is described is found. -/
theorem Session.findTarget?_eq {g : Registry} {configs : List RingConfig} {refs : List RingRef}
    (hall : List.Forall₂ (fun config ref => ∃ ring, g.ring? ref = some ring ∧ config.Builds ring)
      configs refs) {config : RingConfig}
    (hfind : configs.find? (fun config => config.elementSize.toNat == handleSize) = some config) :
    ∃ ref ring, findTarget? g refs = some (ref, ring) ∧ config.Builds ring := by
  induction hall with
  | nil => cases hfind
  | @cons first ref configs refs hring _ ih =>
      obtain ⟨ring, hring, shape, hcapacity, hwidth, hbuild, hbuilt⟩ := hring
      have hsize : ring.elementSize = first.elementSize.toNat := by rw [hbuilt]; exact hwidth
      rw [findTarget?, List.findSome?_cons, hring, Option.bind_some, hsize]
      rw [List.find?_cons] at hfind
      split at hfind
      · rename_i hhandles
        cases hfind
        rw [if_pos (beq_iff_eq.mp hhandles)]
        exact ⟨ref, ring, rfl, shape, hcapacity, hwidth, hbuild, hbuilt⟩
      · rename_i hother
        rw [if_neg (beq_eq_false_iff_ne.mp hother)]
        exact ih hfind

/-! ### Subscriptions -/

/-- Sources with identifiers of their own, none of them subscribed, are all subscribed. -/
theorem LinkCounts.subscribeAll_ok {sources : List SourceId} (hnodup : sources.Nodup) :
    ∀ {c : LinkCounts}, (∀ source ∈ sources, c.isSubscribed source = false) →
      ∃ subscriptions c', c.subscribeAll sources = (.ok subscriptions, c') ∧
        subscriptions.length = sources.length := by
  induction sources with
  | nil => intro c _; exact ⟨[], c, rfl, rfl⟩
  | cons source sources ih =>
      intro c hfree
      obtain ⟨hfresh, hnodup⟩ := List.nodup_cons.mp hnodup
      set c₁ : LinkCounts := ⟨c.counts.push 0, c.subscribed.insert source ⟨c.counts.size⟩⟩ with hc₁
      have hfirst : c.subscribe source = (.ok ⟨source, ⟨c.counts.size⟩⟩, c₁) :=
        if_neg (by rw [hfree source List.mem_cons_self]; decide)
      have hfree₁ : ∀ other ∈ sources, c₁.isSubscribed other = false := by
        intro other hmem
        have hne : (compare source other == .eq) = false :=
          beq_eq_false_iff_ne.mpr fun heq =>
            hfresh (Std.LawfulEqCmp.eq_of_compare heq ▸ hmem)
        rw [isSubscribed, hc₁, Std.TreeMap.contains_insert, hne, Bool.false_or]
        exact hfree other (List.mem_cons_of_mem _ hmem)
      obtain ⟨subscriptions, c', hrest, hlen⟩ := ih hnodup hfree₁
      refine ⟨⟨source, ⟨c.counts.size⟩⟩ :: subscriptions, c', ?_, congrArg Nat.succ hlen⟩
      rw [subscribeAll, hfirst]
      dsimp only
      rw [hrest]
      rfl

namespace Session

theorem length_sources (n : Nat) : (sources n).length = n := by
  rw [sources, List.length_map, List.length_range]

theorem nodup_sources {n : Nat} (h : n ≤ maxProducers) : (sources n).Nodup := by
  refine List.nodup_range.map_on fun i hi j hj heq => ?_
  rw [List.mem_range] at hi hj
  have hvalue := congrArg (fun s : SourceId => s.value.toNat) heq
  dsimp only at hvalue
  rwa [show i.toUInt16.toNat = i from UInt16.toNat_ofNat_of_lt' (hi.trans_le h),
    show j.toUInt16.toNat = j from UInt16.toNat_ofNat_of_lt' (hj.trans_le h)] at hvalue

/-- The command takes so many producers: there is a ring of handles, and a side for one takes no
more than one. -/
structure Admits (config : Config) (producers : UInt64) : Prop where
  pos : producers.toNat ≠ 0
  le_max : producers.toNat ≤ maxProducers
  ring : ∃ ring, config.rings.find? (fun ring => ring.elementSize.toNat == handleSize) = some ring ∧
    (1 < producers.toNat → ring.producer = .multi)

/-- Every reservation succeeds, and the storage of every ring can be addressed, without which it is
not even asked for. -/
structure Affords (memory : Memory) (config : Config) : Prop where
  grants : ∀ bytes, memory.grants bytes = true
  addressable : ∀ ring ∈ config.rings, ring.Addressable

theorem Admits.count {config : Config} {producers : UInt64} (h : Admits config producers) :
    ¬ (producers.toNat = 0 ∨ maxProducers < producers.toNat) :=
  not_or.mpr ⟨h.pos, Nat.not_lt.mpr h.le_max⟩

variable {memory : Memory} {config : Config} {producers : UInt64}

/-- All rings are created, and the one to drive is empty and takes so many producers. -/
theorem target_ok (hchecked : config.Checked) (hadmits : Admits config producers)
    (haffords : Affords memory config) :
    ∃ refs registry target ring capacity,
      Registry.empty.createAll memory config.rings = (.ok refs, registry) ∧
      findTarget? registry refs = some (target, ring) ∧
      ¬ (1 < producers.toNat ∧ ring.producerMode = .single) ∧
      ring.elementSize = handleSize ∧ ring.Represents (.empty capacity handleSize) := by
  obtain ⟨described, hfind, hmode⟩ := hadmits.ring
  obtain ⟨refs, registry, hrings, -, hall⟩ :=
    Registry.createAll_ok haffords.grants hchecked.rings haffords.addressable hchecked.names
      (g := .empty) fun _ _ => Std.TreeMap.getElem?_emptyc
  obtain ⟨target, ring, htarget, shape, -, hwidth, hbuild, rfl⟩ := findTarget?_eq hall hfind
  have hhandles := List.find?_some hfind
  have hwidth' : shape.elementSize = handleSize := hwidth.trans (beq_iff_eq.mp hhandles)
  refine ⟨refs, registry, target, _, shape.capacity, hrings, htarget, ?_, hwidth', ?_⟩
  · rintro ⟨hmany, hsingle⟩
    cases (hmode hmany).symm.trans hsingle
  · rw [← hwidth']
    exact Ring.Represents.initial _ hbuild _ _

/-- Every producer begins with an empty book. -/
theorem workers_ok (hmemory : ∀ bytes, memory.grants bytes = true) {cache : CacheConfig}
    (hsize : cache.size ≠ 0) (ids : List SourceId) :
    ∃ workers, ids.mapM (fun id => Producer.create memory id cache) = .ok workers ∧
      workers.length = ids.length ∧
      ∀ p ∈ workers, p.Keeps cache.size.toNat 0 p.cache.audited ∧ p.forwarded = 0 := by
  have hworker : ∀ id, ∃ p, Producer.create memory id cache = .ok p ∧
      p.Keeps cache.size.toNat 0 p.cache.audited ∧ p.forwarded = 0 := fun id =>
    Producer.create_ok hmemory id hsize
  choose worker hcreate hbegun using hworker
  refine ⟨ids.map worker, mapM_ok fun id _ => hcreate id, List.length_map worker, fun p hp => ?_⟩
  obtain ⟨id, -, rfl⟩ := List.mem_map.mp hp
  exact hbegun id

/-- A session of a checked configuration begins, with empty books and an empty ring. -/
theorem prepare_ok (hchecked : config.Checked) (hadmits : Admits config producers)
    (haffords : Affords memory config) :
    ∃ s, prepare memory config producers = .ok s ∧ s.producers.size = producers.toNat ∧
      s.Balanced config.cache.size.toNat s.producers fun _ => [] := by
  obtain ⟨refs, registry, target, ring, capacity, hrings, htarget, hside, hwidth, hring⟩ :=
    target_ok hchecked hadmits haffords
  obtain ⟨subscriptions, links, hsubscribe, hlinks⟩ :=
    LinkCounts.subscribeAll_ok (nodup_sources hadmits.le_max) (c := .empty)
      fun _ _ => Std.TreeMap.contains_emptyc
  have hcache : config.cache.size ≠ 0 := fun hzero => by
    have := hchecked.cache.1
    rw [hzero] at this
    cases this
  obtain ⟨workers, hworkers, hlen, hbegun⟩ :=
    workers_ok haffords.grants hcache (sources producers.toNat)
  obtain ⟨consumer, hconsumer, hserves⟩ := Consumer.create_ok hwidth config.pipeline
  rw [length_sources] at hlinks hlen
  refine ⟨⟨registry, target, ring, links, subscriptions.toArray, workers.toArray, consumer,
    ⟨false⟩⟩, ?_, hlen, .initial ?_ (fun p hp => hbegun p (List.mem_toArray.mp hp)) capacity hring
      hserves⟩
  · rw [prepare]
    dsimp only
    rw [if_neg hadmits.count, hrings]
    simp only [Except.mapError, bind, Except.bind, htarget, if_neg hside, hsubscribe, hworkers,
      hconsumer]
  · exact Nat.le_of_eq (hlen.trans hlinks.symm)

/-- What is asked of the memory is no more than is needed: where the storage of a ring cannot be
addressed no session begins. -/
theorem prepare_overflow (hchecked : config.Checked) (hadmits : Admits config producers)
    (hmemory : ∀ bytes, memory.grants bytes = true)
    (hbytes : ∃ ring ∈ config.rings, ¬ ring.Addressable) :
    ∃ capacity elementSize, prepare memory config producers =
      .error (.failed (.ring (.storageOverflow capacity elementSize))) := by
  obtain ⟨capacity, elementSize, hfail⟩ :=
    Registry.createAll_overflow hmemory hchecked.rings hchecked.names hbytes
      (g := .empty) fun _ _ => Std.TreeMap.getElem?_emptyc
  refine ⟨capacity, elementSize, ?_⟩
  rw [prepare]
  dsimp only
  rw [if_neg hadmits.count, hfail]
  rfl

end Session

end BurstRing
