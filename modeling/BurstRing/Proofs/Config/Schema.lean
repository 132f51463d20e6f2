import BurstRing.Proofs.Config.Tree

/-!
# What the sections of a document mean

A setting with what a tree means for it is a `Slot`; the settings of a mapping, with where reading
starts and what is made of the draft at the end, are a `Schema`.  What a mapping means is a fold
over its entries (`Schema.read?`), and the decoder of the mapping gives just that
(`Schema.means_mapping`).

The schemas of the sections make up what a whole document means, and settings are decoded as that
(`decodeSettings_eq`).
-/

namespace BurstRing

open Yaml

variable {ρ α : Type}

/-- The entries of a mapping; a plain empty scalar has none. -/
def Tree.entries? : Tree → Option (List (Tree × Tree))
  | .mapping _ entries => some entries
  | .scalar _ "" .plain => some []
  | _ => none

/-- A setting, and what a tree means for it. -/
structure Slot (ρ : Type) where
  field : Field ρ
  put : Tree → ρ → Option ρ
  means : ∀ draft, Means (fun scope node => field.read scope node draft) (put · draft)
  sets : ∀ {t draft draft'}, put t draft = some draft' → field.isSet draft' = true

/-- A setting that is kept in an optional place of the draft. -/
def Slot.of {β : Type} (name : String) (get : ρ → Option β) (set : β → ρ → ρ)
    {decode : Scope → Node → Decoder β} {meaning : Tree → Option β} (hdecode : Means decode meaning)
    (hget : ∀ b draft, get (set b draft) = some b) : Slot ρ where
  field := .of name get set decode
  put t draft := (meaning t).map (set · draft)
  means draft _ _ _ _ ht := (hdecode ht).map (set · draft)
  sets := by
    intro t draft draft' h
    obtain ⟨b, -, rfl⟩ := Option.map_eq_some_iff.mp h
    exact congrArg Option.isSome (hget b draft)

/-- Puts the value of one entry in its place; no setting may come twice. -/
def Slot.offer (slot : Slot ρ) (t : Tree) (draft : ρ) : Option ρ :=
  if slot.field.isSet draft then none else slot.put t draft

/-- The settings of a mapping. -/
structure Schema (ρ α : Type) where
  slots : List (Slot ρ)
  start : ρ
  /-- What a draft is good for when all entries have been read. -/
  finish : ρ → Option α

namespace Schema

variable (s : Schema ρ α)

def slot? (name : String) : Option (Slot ρ) := s.slots.find? (·.field.name == name)

/-- One more entry.  A key that names no setting is passed over. -/
def step (draft : ρ) (entry : Tree × Tree) : Option ρ :=
  entry.1.text?.bind fun name =>
    match s.slot? name with
    | none => some draft
    | some slot => slot.offer entry.2 draft

/-- What a tree means where these settings are asked for. -/
def read? (t : Tree) : Option α :=
  t.entries?.bind fun entries => (entries.foldlM s.step s.start).bind s.finish

variable {s}

theorem gives_entry {scope : Scope} {k v : Tree} {key value : Node} {c c' : Nat}
    (hk : k.Shown scope.anchors key c) (hv : v.Shown scope.anchors value c') (draft : ρ) :
    Gives (c + c') (decodeEntry (s.slots.map Slot.field) scope key value draft)
      (s.step draft (k, v)) := by
  refine (means_text "field identifier" hk).bind fun name _ => ?_
  have hfind : (s.slots.map Slot.field).find? (·.name == name) = (s.slot? name).map Slot.field :=
    List.find?_map ..
  rw [hfind]
  cases s.slot? name with
  | none =>
      exact ((Gives.passOver hv).bind fun _ _ => Gives.pure draft).mono c'.zero_le
  | some slot =>
      dsimp only [Option.map_some, Slot.offer]
      split
      · exact Gives.report _
      · exact slot.means draft hv

theorem gives_entries {scope : Scope} {entries : List (Tree × Tree)} :
    ∀ {nodes : List (Node × Node)} {cost : Nat} (draft : ρ),
      Tree.EntriesShown scope.anchors entries nodes cost →
      Gives cost (decodeEntries (s.slots.map Slot.field) scope nodes draft)
        (entries.foldlM s.step draft) := by
  induction entries with
  | nil =>
      rintro nodes cost draft ⟨rfl, rfl⟩
      exact Gives.pure draft
  | cons entry entries ih =>
      rintro nodes cost draft ⟨key, value, others, c, c', c'', rfl, hk, hv, hothers, rfl⟩
      rw [List.foldlM_cons]
      exact (gives_entry hk hv draft).bind fun draft _ => ih draft hothers

/-- A mapping is decoded as its schema says. -/
theorem means_mapping (s : Schema ρ α) (expected : String) {finish : ρ → Decoder α}
    (hfinish : ∀ draft, Gives 0 (finish draft) (s.finish draft)) :
    Means (decodeMapping (s.slots.map Slot.field) s.start finish expected) s.read? := by
  intro t scope node cost ht
  obtain ⟨c, hshown, rfl⟩ := ht.resolve
  refine Gives.read ?_
  cases t with
  | scalar tag text style =>
      obtain ⟨p, hnode, rfl, -⟩ := ht
      rw [hnode]
      refine Gives.mono ?_ c.zero_le
      split
      · rename_i heq
        cases heq
      · rename_i heq
        cases heq
        exact hfinish s.start
      · rename_i hother
        have hentries : (Tree.scalar p.tag text style).entries? = none := by
          unfold Tree.entries?
          split
          · rename_i heq
            cases heq
          · rename_i heq
            cases heq
            exact absurd rfl (hother p)
          · rfl
        rw [read?, hentries]
        exact Gives.refuse _ _
  | sequence tag items =>
      obtain ⟨p, nodes, c', hnode, -⟩ := ht
      rw [hnode]
      exact Gives.refuse _ _
  | mapping tag entries =>
      obtain ⟨p, nodes, c', hnode, -, hentries, heq⟩ := ht
      rw [hnode]
      have hread : Gives (c' + 0) _ ((entries.foldlM s.step s.start).bind s.finish) :=
        (gives_entries s.start hentries).bind fun draft _ => hfinish draft
      exact hread.mono (by omega)

end Schema

/-! ### Rings -/

namespace RingDraft

def schema : Schema RingDraft RingSettings where
  slots :=
    [.of "name" name (fun a d => { d with name := some a }) (means_text "a string")
        fun _ _ => rfl,
      .of "capacity" capacity (fun a d => { d with capacity := some a }) means_word fun _ _ => rfl,
      .of "element_size" elementSize (fun a d => { d with elementSize := some a }) means_word
        fun _ _ => rfl,
      .of "producer" producer (fun a d => { d with producer := some a }) means_mode fun _ _ => rfl,
      .of "consumer" consumer (fun a d => { d with consumer := some a }) means_mode fun _ _ => rfl]
  start := {}
  finish d :=
    d.name.bind fun name => d.capacity.bind fun capacity =>
      some ⟨name, capacity, d.elementSize.getD handleSize.toUInt64, d.producer.getD .multi,
        d.consumer.getD .multi⟩

end RingDraft

theorem gives_require {β : Type} (name : String) (r : Option β) : Gives 0 (require name r) r := by
  cases r with
  | none => exact Gives.report _
  | some b => exact Gives.pure b

theorem means_ring : Means decodeRing RingDraft.schema.read? :=
  RingDraft.schema.means_mapping "struct RawRingConfig" fun draft =>
    (gives_require "name" draft.name).bind fun _ _ =>
      (gives_require "capacity" draft.capacity).bind fun _ _ => Gives.pure _

/-- Rings, in their order; a plain empty scalar is no ring. -/
def Tree.rings? : Tree → Option (List RingSettings)
  | .sequence _ items => items.mapM RingDraft.schema.read?
  | .scalar _ "" .plain => some []
  | _ => none

theorem gives_items {β : Type} {decode : Scope → Node → Decoder β} {meaning : Tree → Option β}
    (hdecode : Means decode meaning) (scope : Scope) {items : List Tree} :
    ∀ (index : Nat) {nodes : List Node} {cost : Nat},
      Tree.ItemsShown scope.anchors items nodes cost →
      Gives cost (decodeItems decode scope index nodes) (items.mapM meaning) := by
  induction items with
  | nil =>
      rintro index nodes cost ⟨rfl, rfl⟩
      exact Gives.pure []
  | cons t items ih =>
      rintro index nodes cost ⟨node, others, c, c', rfl, ht, hothers, rfl⟩
      have hscope : t.Shown (scope.enter (.index index)).anchors node c := ht
      rw [List.mapM_cons]
      exact (hdecode hscope).bind fun b _ =>
        (ih (index + 1) hothers).bind fun bs _ => Gives.pure (b :: bs)

theorem means_rings : Means decodeRings Tree.rings? := by
  intro t scope node cost ht
  obtain ⟨c, -, rfl⟩ := ht.resolve
  refine Gives.read ?_
  cases t with
  | scalar tag text style =>
      obtain ⟨p, hnode, rfl, -⟩ := ht
      rw [hnode]
      refine Gives.mono ?_ c.zero_le
      unfold Tree.rings?
      split
      · rename_i heq
        cases heq
      · rename_i heq
        cases heq
        exact Gives.pure []
      · rename_i hother
        split
        · rename_i heq
          cases heq
        · rename_i heq
          cases heq
          exact absurd rfl (hother p)
        · exact Gives.refuse _ _
  | sequence tag items =>
      obtain ⟨p, nodes, c', hnode, -, hitems, heq⟩ := ht
      rw [hnode]
      have hread := (gives_items means_ring scope 0 hitems).bind
        (g := some) fun rings _ => Gives.pure rings
      rw [Option.bind_fun_some] at hread
      exact hread.mono (by omega)
  | mapping tag entries =>
      obtain ⟨p, nodes, c', hnode, -⟩ := ht
      rw [hnode]
      exact Gives.refuse _ _

/-! ### The other sections -/

namespace LoopDraft

def schema : Schema LoopDraft LoopSettings where
  slots :=
    [.of "flush_interval" flushInterval (fun a d => { d with flushInterval := some a })
        means_halfWord fun _ _ => rfl,
      .of "burst_size" burstSize (fun a d => { d with burstSize := some a }) means_word
        fun _ _ => rfl]
  start := {}
  finish d := some ⟨d.flushInterval.getD defaultFlushInterval, d.burstSize.getD defaultBurstSize⟩

end LoopDraft

theorem means_loop : Means decodeLoop LoopDraft.schema.read? :=
  LoopDraft.schema.means_mapping "struct RawPipelineConfig" fun _ => Gives.pure _

namespace CacheDraft

def schema : Schema CacheDraft CacheSettings where
  slots :=
    [.of "size" size (fun a d => { d with size := some a }) means_word fun _ _ => rfl,
      .of "numa_node" node (fun a d => { d with node := some a }) means_optionalWord
        fun _ _ => rfl]
  start := {}
  finish d := some ⟨d.size.getD defaultCacheSize, d.node.join⟩

end CacheDraft

theorem means_cache : Means decodeCache CacheDraft.schema.read? :=
  CacheDraft.schema.means_mapping "struct RawReceiveCacheConfig" fun _ => Gives.pure _

namespace SettingsDraft

def schema : Schema SettingsDraft Settings where
  slots :=
    [.of "rings" rings (fun a d => { d with rings := some a }) means_rings fun _ _ => rfl,
      .of "pipeline" pipeline (fun a d => { d with pipeline := some a }) means_loop
        fun _ _ => rfl,
      .of "receive_cache" cache (fun a d => { d with cache := some a }) means_cache
        fun _ _ => rfl]
  start := {}
  finish d := d.rings.bind fun rings => some ⟨rings, d.pipeline.getD {}, d.cache.getD {}⟩

end SettingsDraft

theorem means_settings :
    Means (decodeMapping SettingsDraft.fields {} SettingsDraft.finish "struct RawConfig")
      SettingsDraft.schema.read? :=
  SettingsDraft.schema.means_mapping "struct RawConfig" fun draft =>
    (gives_require "rings" draft.rings).bind fun _ _ => Gives.pure _

/-- Settings are decoded as what the tree of the document means. -/
theorem decodeSettings_eq {anchors : Anchors} {limit : Nat} {root : Node} {t : Tree} {cost : Nat}
    (ht : t.Shown anchors root cost) (hlimit : cost ≤ limit) :
    (decodeSettings anchors limit root).toOption = SettingsDraft.schema.read? t := by
  have hscope : t.Shown (Scope.mk anchors []).anchors root cost := ht
  obtain ⟨used, -, hread⟩ := means_settings hscope limit hlimit
  have hvalue {x : Except DecodeError (Settings × Nat)} :
      (Prod.fst <$> x).toOption = x.toOption.map Prod.fst := by
    cases x <;> rfl
  rw [decodeSettings, StateT.run', hvalue, hread, Option.map_map]
  cases SettingsDraft.schema.read? t <;> rfl

end BurstRing
