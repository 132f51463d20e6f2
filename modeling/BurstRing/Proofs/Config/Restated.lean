import BurstRing.Config.Load
import BurstRing.Proofs.Config.Entries
import Mathlib.Logic.Relation

/-!
# Restating a configuration

A configuration can be written in more than one way.  An edit changes the order of some keys, adds a
key that names no setting, or writes a setting as what it is without, at the top or further down
(`Edit`); which of these a mapping admits depends on what is asked for in its place (`Part`).  Trees
that edits lead from one to the other restate each other (`Tree.Restates`).

An edit leaves what a tree means as it is, by induction on where it is made (`Edit.alike`).  Since a
document is loaded as what its tree means (`Config.ofDocument_eq`), documents whose trees restate
each other are loaded alike (`Config.loads_restated_alike`).
-/

namespace BurstRing

open Yaml

variable {ρ α : Type}

/-! ### The sections -/

/-- What is asked for at a place of a document. -/
inductive Part where
  | settings
  | rings
  | ring
  | loop
  | cache
  /-- A single value, or nothing. -/
  | other
  deriving DecidableEq

namespace Part

/-- The settings that a mapping may have there. -/
def names : Part → List String
  | .settings => ["rings", "pipeline", "receive_cache"]
  | .ring => ["name", "capacity", "element_size", "producer", "consumer"]
  | .loop => ["flush_interval", "burst_size"]
  | .cache => ["size", "numa_node"]
  | .rings | .other => []

/-- What is asked for as the value of a key. -/
def value : Part → (key : Option String) → Part
  | .settings, some "rings" => .rings
  | .settings, some "pipeline" => .loop
  | .settings, some "receive_cache" => .cache
  | _, _ => .other

/-- What is asked for as an item. -/
def item : Part → Part
  | .rings => .ring
  | _ => .other

/-- The tree is what an absent setting stands for. -/
inductive Default : Part → (name : String) → Tree → Prop where
  | pipeline (tag : Option Tag) : Default .settings "pipeline" (.mapping tag [])
  | receiveCache (tag : Option Tag) : Default .settings "receive_cache" (.mapping tag [])
  | elementSize {t : Tree} (h : t.word? = some 8) : Default .ring "element_size" t
  | producer {t : Tree} (h : t.mode? = some .multi) : Default .ring "producer" t
  | consumer {t : Tree} (h : t.mode? = some .multi) : Default .ring "consumer" t
  | flushInterval {t : Tree} (h : t.halfWord? = some 1024) : Default .loop "flush_interval" t
  | burstSize {t : Tree} (h : t.word? = some 32) : Default .loop "burst_size" t
  | size {t : Tree} (h : t.word? = some 32) : Default .cache "size" t
  | numaNode {t : Tree} (h : t.optionalWord? = some none) : Default .cache "numa_node" t

end Part

/-- One change that leaves a configuration what it is: in the order of some entries, by a key that
names no setting, by a setting that is written as what it is without, or any of these further
down. -/
inductive Edit : Part → Tree → Tree → Prop where
  | permute {part : Part} {tag : Option Tag} {entries entries' : List (Tree × Tree)}
    (h : entries.Perm entries') : Edit part (.mapping tag entries) (.mapping tag entries')
  | add {part : Part} {tag : Option Tag} {entries : List (Tree × Tree)} {key value : Tree}
    {name : String} (hpart : part.names ≠ []) (hkey : key.text? = some name)
    (hname : name ∉ part.names) :
    Edit part (.mapping tag entries) (.mapping tag ((key, value) :: entries))
  | spell {part : Part} {tag : Option Tag} {entries : List (Tree × Tree)} {key value : Tree}
    {name : String} (hkey : key.text? = some name) (hvalue : part.Default name value)
    (habsent : ∀ e ∈ entries, e.1.text? ≠ some name) :
    Edit part (.mapping tag entries) (.mapping tag ((key, value) :: entries))
  | value {part : Part} {tag : Option Tag} {entries : List (Tree × Tree)} {key value value' : Tree}
    (h : Edit (part.value key.text?) value value') :
    Edit part (.mapping tag ((key, value) :: entries)) (.mapping tag ((key, value') :: entries))
  | key {part : Part} {tag : Option Tag} {entries : List (Tree × Tree)} {key key' value : Tree}
    (h : Edit .other key key') :
    Edit part (.mapping tag ((key, value) :: entries)) (.mapping tag ((key', value) :: entries))
  | item {part : Part} {tag : Option Tag} {before after : List Tree} {t t' : Tree}
    (h : Edit part.item t t') :
    Edit part (.sequence tag (before ++ t :: after)) (.sequence tag (before ++ t' :: after))

/-- The tree is a sequence or a mapping. -/
def Tree.IsCollection : Tree → Prop
  | .scalar .. => False
  | .sequence .. | .mapping .. => True

/-- The trees mean the same where this is asked for. -/
def Part.Alike : Part → Tree → Tree → Prop
  | .settings, t, t' => SettingsDraft.schema.read? t = SettingsDraft.schema.read? t'
  | .rings, t, t' => t.rings? = t'.rings?
  | .ring, t, t' => RingDraft.schema.read? t = RingDraft.schema.read? t'
  | .loop, t, t' => LoopDraft.schema.read? t = LoopDraft.schema.read? t'
  | .cache, t, t' => CacheDraft.schema.read? t = CacheDraft.schema.read? t'
  | .other, t, t' => t.IsCollection ∧ t'.IsCollection

/-- The schema is of mappings in that place. -/
structure Schema.Describes (s : Schema ρ α) (part : Part) : Prop where
  tidy : s.Tidy
  slot?_eq_none : ∀ {name}, name ∉ part.names → s.slot? name = none
  redundant : ∀ {name t}, part.Default name t → s.Redundant name t
  put_eq : ∀ {name v v'}, (part.value (some name)).Alike v v' → ∀ slot, s.slot? name = some slot →
    ∀ draft, slot.put v draft = slot.put v' draft

/-- The tree means no single value of any kind. -/
structure Tree.NoValue (t : Tree) : Prop where
  text : t.text? = none
  word : t.word? = none
  halfWord : t.halfWord? = none
  mode : t.mode? = none
  optionalWord : t.optionalWord? = none

theorem Tree.IsCollection.noValue {t : Tree} (h : t.IsCollection) : t.NoValue := by
  cases t with
  | scalar tag s style => exact h.elim
  | sequence tag items => exact ⟨rfl, rfl, rfl, rfl, rfl⟩
  | mapping tag entries => exact ⟨rfl, rfl, rfl, rfl, rfl⟩

/-- Collections in place of a single value are alike, since both are refused. -/
theorem Part.Alike.map_eq {β γ : Type} {meaning : Tree → Option β} {t t' : Tree}
    (h : Part.other.Alike t t') (hmeaning : ∀ t : Tree, t.IsCollection → meaning t = none)
    (f : β → γ) : (meaning t).map f = (meaning t').map f := by
  rw [hmeaning t h.1, hmeaning t' h.2]

theorem RingDraft.describes : schema.Describes .ring where
  tidy := {
    apart := by
      simp only [schema, List.pairwise_cons, List.forall_mem_cons, List.not_mem_nil, false_implies,
        implies_true, and_true, List.Pairwise.nil]
      refine ⟨⟨?_, ?_, ?_, ?_⟩, ⟨?_, ?_, ?_⟩, ⟨?_, ?_⟩, ?_⟩ <;>
        exact .of (fun _ _ => rfl) (fun _ _ => rfl) fun _ _ _ => rfl
    unset := rfl }
  slot?_eq_none h := Schema.slot?_eq_none rfl h
  redundant := by
    rintro name t (_ | _)
    all_goals
      rename_i h
      refine Schema.redundant_of rfl h fun d hd => ?_
      simp only [schema, hd]
      rfl
  put_eq := by
    intro name v v' halike slot hslot draft
    obtain ⟨hmem, rfl⟩ := Schema.slot?_eq_some hslot
    simp only [schema, List.mem_cons, List.not_mem_nil, or_false] at hmem
    obtain rfl | rfl | rfl | rfl | rfl := hmem
    · exact halike.map_eq (fun _ h => h.noValue.text) _
    · exact halike.map_eq (fun _ h => h.noValue.word) _
    · exact halike.map_eq (fun _ h => h.noValue.word) _
    · exact halike.map_eq (fun _ h => h.noValue.mode) _
    · exact halike.map_eq (fun _ h => h.noValue.mode) _

theorem LoopDraft.describes : schema.Describes .loop where
  tidy := {
    apart := List.pairwise_pair.mpr <|
      .of (fun _ _ => rfl) (fun _ _ => rfl) fun _ _ _ => rfl
    unset := rfl }
  slot?_eq_none h := Schema.slot?_eq_none rfl h
  redundant := by
    rintro name t (_ | _)
    all_goals
      rename_i h
      refine Schema.redundant_of rfl h fun d hd => ?_
      simp only [schema, hd]
      rfl
  put_eq := by
    intro name v v' halike slot hslot draft
    obtain ⟨hmem, rfl⟩ := Schema.slot?_eq_some hslot
    simp only [schema, List.mem_cons, List.not_mem_nil, or_false] at hmem
    obtain rfl | rfl := hmem
    · exact halike.map_eq (fun _ h => h.noValue.halfWord) _
    · exact halike.map_eq (fun _ h => h.noValue.word) _

theorem CacheDraft.describes : schema.Describes .cache where
  tidy := {
    apart := List.pairwise_pair.mpr <|
      .of (fun _ _ => rfl) (fun _ _ => rfl) fun _ _ _ => rfl
    unset := rfl }
  slot?_eq_none h := Schema.slot?_eq_none rfl h
  redundant := by
    rintro name t (_ | _)
    all_goals
      rename_i h
      refine Schema.redundant_of rfl h fun d hd => ?_
      simp only [schema, hd]
      rfl
  put_eq := by
    intro name v v' halike slot hslot draft
    obtain ⟨hmem, rfl⟩ := Schema.slot?_eq_some hslot
    simp only [schema, List.mem_cons, List.not_mem_nil, or_false] at hmem
    obtain rfl | rfl := hmem
    · exact halike.map_eq (fun _ h => h.noValue.word) _
    · exact halike.map_eq (fun _ h => h.noValue.optionalWord) _

theorem SettingsDraft.describes : schema.Describes .settings where
  tidy := {
    apart := by
      simp only [schema, List.pairwise_cons, List.forall_mem_cons, List.not_mem_nil, false_implies,
        implies_true, and_true, List.Pairwise.nil]
      refine ⟨⟨?_, ?_⟩, ?_⟩ <;> exact .of (fun _ _ => rfl) (fun _ _ => rfl) fun _ _ _ => rfl
    unset := rfl }
  slot?_eq_none h := Schema.slot?_eq_none rfl h
  redundant := by
    rintro name t (_ | _)
    all_goals
      refine Schema.redundant_of rfl rfl fun d hd => ?_
      simp only [schema, hd]
      rfl
  put_eq := by
    intro name v v' halike slot hslot draft
    obtain ⟨hmem, rfl⟩ := Schema.slot?_eq_some hslot
    simp only [schema, List.mem_cons, List.not_mem_nil, or_false] at hmem
    obtain rfl | rfl | rfl := hmem
    all_goals exact congrArg (Option.map _) halike

/-! ### Edits -/

/-- Trees mean the same in a place if they do by each schema of mappings in that place. -/
theorem Part.Alike.of_schemas {part : Part} {t t' : Tree}
    (hother : part = .other → t.IsCollection ∧ t'.IsCollection)
    (hrings : part = .rings → t.rings? = t'.rings?)
    (h : ∀ {ρ α : Type} (s : Schema ρ α), s.Describes part → s.read? t = s.read? t') :
    part.Alike t t' := by
  cases part with
  | settings => exact h _ SettingsDraft.describes
  | rings => exact hrings rfl
  | ring => exact h _ RingDraft.describes
  | loop => exact h _ LoopDraft.describes
  | cache => exact h _ CacheDraft.describes
  | other => exact hother rfl

/-- An edit changes nothing that a tree means. -/
theorem Edit.alike {part : Part} {t t' : Tree} (h : Edit part t t') : part.Alike t t' := by
  induction h with
  | permute hperm =>
      exact .of_schemas (fun _ => ⟨trivial, trivial⟩) (fun _ => rfl)
        fun s hs => hs.tidy.read?_perm hperm
  | add hpart hkey hname =>
      exact .of_schemas (fun _ => ⟨trivial, trivial⟩) (fun _ => rfl)
        fun s hs => (Schema.read?_add hkey (hs.slot?_eq_none hname)).symm
  | spell hkey hvalue habsent =>
      exact .of_schemas (fun _ => ⟨trivial, trivial⟩) (fun _ => rfl)
        fun s hs => (hs.tidy.read?_spell hkey (hs.redundant hvalue) habsent).symm
  | value _ ih =>
      refine .of_schemas (fun _ => ⟨trivial, trivial⟩) (fun _ => rfl) fun s hs => ?_
      exact Schema.read?_entry (Schema.step_value fun name hname => hs.put_eq (hname ▸ ih))
  | key _ ih =>
      refine .of_schemas (fun _ => ⟨trivial, trivial⟩) (fun _ => rfl) fun s hs => ?_
      refine Schema.read?_entry fun draft => ?_
      rw [Schema.step_nameless ih.1.noValue.text, Schema.step_nameless ih.2.noValue.text]
  | item _ ih =>
      refine .of_schemas (fun _ => ⟨trivial, trivial⟩) ?_ fun s hs => rfl
      rintro rfl
      have hring : RingDraft.schema.read? _ = RingDraft.schema.read? _ := ih
      simp only [Tree.rings?, List.mapM_append, List.mapM_cons, hring]

/-- One tree is made of the other by edits, done or undone. -/
def Tree.Restates : Tree → Tree → Prop := Relation.EqvGen (Edit .settings)

theorem Tree.Restates.read?_eq {t t' : Tree} (h : t.Restates t') :
    SettingsDraft.schema.read? t = SettingsDraft.schema.read? t' := by
  induction h with
  | rel _ _ hedit => exact hedit.alike
  | refl _ => rfl
  | symm _ _ _ ih => exact ih.symm
  | trans _ _ _ _ _ ih ih' => exact ih.trans ih'

/-! ### Defaults in plain words -/

/-- A plain scalar without a tag. -/
def Tree.plain (text : String) : Tree := .scalar none text .plain

/-- Entries of plain scalars. -/
def Tree.written (entries : List (String × String)) : List (Tree × Tree) :=
  entries.map fun e => (plain e.1, plain e.2)

/-- What each setting that may be absent is without, as it is usually written. -/
def plainDefaults : List (Part × String × String) :=
  [(.ring, "element_size", "8"), (.ring, "producer", "multi"), (.ring, "consumer", "multi"),
    (.loop, "flush_interval", "1024"), (.loop, "burst_size", "32"), (.cache, "size", "32"),
    (.cache, "numa_node", "null")]

theorem default_of_mem_plainDefaults :
    ∀ d ∈ plainDefaults, d.1.Default d.2.1 (.plain d.2.2) := by
  simp only [plainDefaults, List.forall_mem_cons, List.not_mem_nil, false_implies, implies_true,
    and_true]
  exact ⟨.elementSize (by decide), .producer (by decide), .consumer (by decide),
    .flushInterval (by decide), .burstSize (by decide), .size (by decide), .numaNode (by decide)⟩

/-! ### Documents -/

/-- The settings that a document holds. -/
def settingsOf (document : Document) : Except Failure Settings :=
  match decodeSettings document.anchors document.aliasLimit document.root with
  | .error (.mismatch finding place) => .error (parseFailure (finding.messageAt place))
  | .error .tooManyAliases => .error (parseFailure "repetition limit exceeded")
  | .error .brokenOff =>
    .error ((endingFailure? document.ending).getD (parseFailure "EOF while parsing a value"))
  | .ok settings =>
    match endingFailure? document.ending with
    | some failure => .error failure
    | none => .ok settings

/-- The configuration that a document holds. -/
def Config.ofDocument (document : Document) : Except Failure Config := do
  let settings ← settingsOf document
  settings.validate.mapError .setting

theorem readSettings_eq (text : String) : readSettings text = settingsOf (Document.ofText text) := by
  unfold readSettings settingsOf
  generalize Document.ofText text = d
  rfl

theorem Config.ofText_eq (text : String) : ofText text = ofDocument (Document.ofText text) := by
  rw [ofText, ofDocument, readSettings_eq]

/-- The document is whole and says what the tree says, with no more aliases than may be followed. -/
structure Yaml.Document.Shows (d : Document) (t : Tree) : Prop where
  ending : d.ending = .clean
  root : ∃ cost ≤ d.aliasLimit, t.Shown d.anchors d.root cost

namespace Config

/-- What is loaded from a document is what its tree means, if that passes the checks. -/
theorem ofDocument_eq {d : Document} {t : Tree} (h : d.Shows t) :
    (ofDocument d).toOption = (SettingsDraft.schema.read? t).bind (·.validate.toOption) := by
  obtain ⟨cost, hlimit, ht⟩ := h.root
  rw [← decodeSettings_eq ht hlimit, ofDocument, settingsOf]
  cases decodeSettings d.anchors d.aliasLimit d.root with
  | error e => cases e <;> rfl
  | ok settings =>
      rw [h.ending]
      change (settings.validate.mapError Failure.setting).toOption = settings.validate.toOption
      cases settings.validate <;> rfl

end Config

mutual

/-- A node that says what the tree says. -/
def Tree.node : Tree → Node
  | .scalar tag text style => .scalar ⟨none, tag, .origin⟩ text style
  | .sequence tag items => .sequence ⟨none, tag, .origin⟩ (nodes items) true
  | .mapping tag entries => .mapping ⟨none, tag, .origin⟩ (nodePairs entries) true

def Tree.nodes : List Tree → List Node
  | [] => []
  | t :: rest => t.node :: nodes rest

def Tree.nodePairs : List (Tree × Tree) → List (Node × Node)
  | [] => []
  | (k, v) :: rest => (k.node, v.node) :: nodePairs rest

end

mutual

theorem Tree.shown_node (anchors : Anchors) : ∀ t : Tree, t.Shown anchors t.node 0
  | .scalar .. => ⟨_, rfl, rfl, rfl⟩
  | .sequence _ items => ⟨_, _, 0, rfl, rfl, Tree.shown_nodes anchors items, rfl⟩
  | .mapping _ entries => ⟨_, _, 0, rfl, rfl, Tree.shown_nodePairs anchors entries, rfl⟩

theorem Tree.shown_nodes (anchors : Anchors) :
    ∀ items : List Tree, Tree.ItemsShown anchors items (Tree.nodes items) 0
  | [] => ⟨rfl, rfl⟩
  | t :: rest => ⟨_, _, 0, 0, rfl, t.shown_node anchors, Tree.shown_nodes anchors rest, rfl⟩

theorem Tree.shown_nodePairs (anchors : Anchors) :
    ∀ entries : List (Tree × Tree), Tree.EntriesShown anchors entries (Tree.nodePairs entries) 0
  | [] => ⟨rfl, rfl⟩
  | (k, v) :: rest => ⟨_, _, _, 0, 0, 0, rfl, k.shown_node anchors, v.shown_node anchors,
    Tree.shown_nodePairs anchors rest, rfl⟩

end

namespace Config

theorem toOption_eq_of_restates {d d' : Document} {t t' : Tree} (h : d.Shows t) (h' : d'.Shows t')
    (hrestates : t.Restates t') : (ofDocument d).toOption = (ofDocument d').toOption := by
  rw [ofDocument_eq h, ofDocument_eq h', hrestates.read?_eq]

/-- A document without the section, one in which it is empty and one in which it is written out
are loaded alike. -/
def SectionMayBeAbsent (name : String) (written : List (String × String)) : Prop :=
  ∀ (d d' d'' : Document) (tag : Option Tag) (entries : List (Tree × Tree)),
    (∀ e ∈ entries, e.1.text? ≠ some name) → d.Shows (.mapping tag entries) →
    d'.Shows (.mapping tag ((.plain name, .mapping none []) :: entries)) →
    d''.Shows (.mapping tag ((.plain name, .mapping none (Tree.written written)) :: entries)) →
    (ofDocument d).toOption = (ofDocument d').toOption ∧
      (ofDocument d').toOption = (ofDocument d'').toOption

/-- An empty section may have each of its settings written as what it is without. -/
theorem restates_written {part : Part} {written : List (String × String)}
    (hdefaults : ∀ e ∈ written, (part, e.1, e.2) ∈ plainDefaults)
    (hnodup : (written.map Prod.fst).Nodup) :
    Relation.EqvGen (Edit part) (.mapping none []) (.mapping none (Tree.written written)) := by
  induction written with
  | nil => exact .refl _
  | cons e written ih =>
      rw [List.forall_mem_cons] at hdefaults
      rw [List.map_cons, List.nodup_cons] at hnodup
      have hkey : (Tree.plain e.1).text? = some e.1 := rfl
      refine (ih hdefaults.2 hnodup.2).trans _ _ _ (.rel _ _ ?_)
      refine .spell hkey (default_of_mem_plainDefaults _ hdefaults.1) fun x hx heq => ?_
      obtain ⟨f, hf, rfl⟩ := List.mem_map.mp hx
      exact hnodup.1 (Option.some.inj heq ▸ List.mem_map_of_mem hf)

theorem restates_value {tag : Option Tag} {entries : List (Tree × Tree)} {key v v' : Tree}
    (h : Relation.EqvGen (Edit (Part.value .settings key.text?)) v v') :
    Tree.Restates (.mapping tag ((key, v) :: entries)) (.mapping tag ((key, v') :: entries)) := by
  induction h with
  | rel _ _ hedit => exact .rel _ _ (.value hedit)
  | refl _ => exact .refl _
  | symm _ _ _ ih => exact ih.symm
  | trans _ _ _ _ _ ih ih' => exact ih.trans _ _ _ ih'

theorem sectionMayBeAbsent {name : String} {written : List (String × String)}
    (hname : Part.Default .settings name (.mapping none []))
    (hdefaults : ∀ e ∈ written, (Part.value .settings (some name), e.1, e.2) ∈ plainDefaults)
    (hnodup : (written.map Prod.fst).Nodup) : SectionMayBeAbsent name written := by
  intro d d' d'' tag entries habsent h h' h''
  have hkey : (Tree.plain name).text? = some name := rfl
  exact ⟨toOption_eq_of_restates h h' (.rel _ _ (.spell hkey hname habsent)),
    toOption_eq_of_restates h' h'' (restates_value (restates_written hdefaults hnodup))⟩

/-- The configuration that a document holds, and whether it holds one, depends only on what the
document says up to edits: the order of keys, keys that name no setting, and settings written as
what they are without. -/
theorem loads_restated_alike :
    (∀ text, ofText text = ofDocument (Document.ofText text)) ∧
    (∀ t : Tree, ∃ d : Document, d.Shows t) ∧
    (∀ (d d' : Document) (t t' : Tree), d.Shows t → d'.Shows t' → t.Restates t' →
      (ofDocument d).toOption = (ofDocument d').toOption) ∧
    (∀ d ∈ plainDefaults, d.1.Default d.2.1 (.plain d.2.2)) ∧
    SectionMayBeAbsent "pipeline" [("flush_interval", "1024"), ("burst_size", "32")] ∧
    SectionMayBeAbsent "receive_cache" [("size", "32"), ("numa_node", "null")] := by
  refine ⟨ofText_eq, fun t => ⟨⟨t.node, [], .clean⟩, rfl, 0, Nat.zero_le _, t.shown_node []⟩,
    fun _ _ _ _ => toOption_eq_of_restates, default_of_mem_plainDefaults, ?_, ?_⟩
  · exact sectionMayBeAbsent (.pipeline none) (by decide) (by decide)
  · exact sectionMayBeAbsent (.receiveCache none) (by decide) (by decide)

example :
    (ofText "rings:\n- name: a\n  capacity: 8\n").toOption =
      (ofText "note: 1\npipeline:\n  burst_size: 32\nrings:\n- capacity: 8\n  name: a\n").toOption ∧
    (ofText "rings:\n- name: a\n  capacity: 8\n").toOption.isSome := by
  decide +kernel

end Config

end BurstRing
