import BurstRing.Config.Decode
import Mathlib.Tactic.Common

/-!
# What a document says

The tree of a document without the places of its nodes, and with every alias replaced by what it
stands for (`Tree`).  A node shows a tree if following its aliases leads to it; how many have to be
followed is counted (`Tree.Shown`).

A decoder gives a value if it does so with as many aliases as it may need, and fails if there is
none to give (`Gives`).  Each kind of value that a setting has is a function of the tree
(`Tree.text?`, `Tree.nat?`, `Tree.mode?`, `Tree.optionalWord?`), and the decoder of that kind gives
what the function says (`Means`).
-/

namespace BurstRing

open Yaml

/-- What a node says, wherever it stands. -/
inductive Tree where
  | scalar (tag : Option Tag) (text : String) (style : ScalarStyle)
  | sequence (tag : Option Tag) (items : List Tree)
  | mapping (tag : Option Tag) (entries : List (Tree × Tree))

namespace Tree

/-- How many aliases are followed from a node to what it stands for. -/
def detour : Node → Nat
  | .alias .. => 1
  | _ => 0

mutual

/-- The node stands for the tree, and `cost` aliases are followed to see all of it. -/
def Shown (anchors : Anchors) : Tree → Node → (cost : Nat) → Prop
  | .scalar tag text style, node, cost =>
    ∃ p, node.resolve anchors = .scalar p text style ∧ p.tag = tag ∧ cost = detour node
  | .sequence tag items, node, cost =>
    ∃ p nodes c, node.resolve anchors = .sequence p nodes true ∧ p.tag = tag ∧
      ItemsShown anchors items nodes c ∧ cost = detour node + c
  | .mapping tag entries, node, cost =>
    ∃ p nodes c, node.resolve anchors = .mapping p nodes true ∧ p.tag = tag ∧
      EntriesShown anchors entries nodes c ∧ cost = detour node + c

def ItemsShown (anchors : Anchors) : List Tree → List Node → (cost : Nat) → Prop
  | [], nodes, cost => nodes = [] ∧ cost = 0
  | t :: rest, nodes, cost =>
    ∃ node others c c', nodes = node :: others ∧ Shown anchors t node c ∧
      ItemsShown anchors rest others c' ∧ cost = c + c'

def EntriesShown (anchors : Anchors) :
    List (Tree × Tree) → List (Node × Node) → (cost : Nat) → Prop
  | [], nodes, cost => nodes = [] ∧ cost = 0
  | (k, v) :: rest, nodes, cost =>
    ∃ key value others c c' c'', nodes = (key, value) :: others ∧ Shown anchors k key c ∧
      Shown anchors v value c' ∧ EntriesShown anchors rest others c'' ∧ cost = c + c' + c''

end

/-! ### What a tree means as a single value -/

def text? : Tree → Option String
  | .scalar _ s _ => some s
  | _ => none

/-- A natural number below `bound`, from a scalar that may be read as a number. -/
def nat? (bound : Nat) : Tree → Option Nat
  | .scalar tag s style =>
    (if isNumeric ⟨none, tag, .origin⟩ style then readNat? UInt64.size s.toList else none).filter
      (· < bound)
  | _ => none

def word? (t : Tree) : Option UInt64 := (t.nat? UInt64.size).map Nat.toUInt64

def halfWord? (t : Tree) : Option UInt32 := (t.nat? UInt32.size).map Nat.toUInt32

/-- A word, or nothing where a plain scalar is blank. -/
def optionalWord? : Tree → Option (Option UInt64)
  | t@(.scalar tag s .plain) =>
    match tag with
    | none => if isBlankScalar s .plain then some none else t.word?.map some
    | some tag =>
      if tag = nullTag then if isNull s then some none else none
      else t.word?.map some
  | t => t.word?.map some

/-- A mode by its word, or by the name of a tag on a blank scalar. -/
def mode? : Tree → Option SyncMode
  | .scalar tag s style =>
    match tag.bind Tag.name? with
    | some name => if isBlankScalar s style then SyncMode.ofText? name else none
    | none => SyncMode.ofText? s
  | _ => none

end Tree

/-! ### What a decoder gives -/

/-- With `cost` aliases to follow, the decoder gives the value and leaves what it has not followed;
it fails if there is no value. -/
def Gives {α : Type} (cost : Nat) (d : Decoder α) (r : Option α) : Prop :=
  ∀ left, cost ≤ left → ∃ used ≤ cost, (d left).toOption = r.map (·, left - used)

namespace Gives

variable {α β : Type} {cost cost' : Nat} {d : Decoder α} {r : Option α}

theorem mono (h : Gives cost d r) (hle : cost ≤ cost') : Gives cost' d r := by
  intro left hleft
  obtain ⟨used, hused, hd⟩ := h left (Nat.le_trans hle hleft)
  exact ⟨used, Nat.le_trans hused hle, hd⟩

theorem pure (a : α) : Gives 0 (Pure.pure a : Decoder α) (some a) :=
  fun _ _ => ⟨0, Nat.le_refl 0, rfl⟩

theorem throw (e : DecodeError) : Gives cost (MonadExcept.throw e : Decoder α) none :=
  fun _ _ => ⟨0, Nat.zero_le cost, rfl⟩

theorem report (finding : Mismatch) : Gives cost (reportUnplaced finding : Decoder α) none :=
  throw _

theorem breakOff : Gives cost (BurstRing.breakOff : Decoder α) none := throw _

theorem bind {f : α → Decoder β} {g : α → Option β} (h : Gives cost d r)
    (hf : ∀ a, r = some a → Gives cost' (f a) (g a)) :
    Gives (cost + cost') (d >>= f) (r.bind g) := by
  intro left hleft
  obtain ⟨used, hused, hd⟩ := h left (by omega)
  change ∃ used ≤ cost + cost', (d left >>= fun p => f p.1 p.2).toOption = _
  cases r with
  | none =>
      cases hresult : d left with
      | error e => exact ⟨0, Nat.zero_le _, rfl⟩
      | ok p => rw [hresult] at hd; cases hd
  | some a =>
      cases hresult : d left with
      | error e => rw [hresult] at hd; cases hd
      | ok p =>
          rw [hresult] at hd
          obtain rfl : p = (a, left - used) := Option.some.inj hd
          obtain ⟨used', hused', hfa⟩ := hf a rfl (left - used) (by omega)
          refine ⟨used + used', by omega, ?_⟩
          rw [← Nat.sub_sub]
          exact hfa

theorem map (h : Gives cost d r) (f : α → β) : Gives cost (f <$> d) (r.map f) := by
  have hbind := h.bind (g := some ∘ f) fun a _ => Gives.pure (f a)
  rw [Nat.add_zero, ← Option.map_eq_bind] at hbind
  rw [map_eq_pure_bind]
  exact hbind

theorem locate (h : Gives cost d r) (scope : Scope) (mark : Mark) :
    Gives cost (scope.locate mark d) r := by
  intro left hleft
  obtain ⟨used, hused, hd⟩ := h left hleft
  refine ⟨used, hused, ?_⟩
  rw [← hd]
  change ((d left).mapError _).toOption = _
  cases d left <;> rfl

theorem follow (scope : Scope) (node : Node) :
    Gives (Tree.detour node) (scope.follow node) (some (node.resolve scope.anchors)) := by
  intro left hleft
  refine ⟨Tree.detour node, Nat.le_refl _, ?_⟩
  match node, left, hleft with
  | .alias .., _ + 1, _ => rfl
  | .scalar .., _, _ | .sequence .., _, _ | .mapping .., _, _ | .missing, _, _ => rfl

theorem read {scope : Scope} {node : Node} {decode : Node → Decoder α}
    (h : Gives cost (decode (node.resolve scope.anchors)) r) :
    Gives (Tree.detour node + cost) (scope.read node decode) r :=
  (Gives.follow scope node).bind (g := fun _ => r) fun _ heq =>
    Option.some.inj heq ▸ h.locate scope _

/-- No value where something else is expected. -/
theorem refuse (expected : String) (node : Node) :
    Gives cost (BurstRing.refuse expected node : Decoder α) none := by
  unfold BurstRing.refuse
  split
  · split <;> exact report _
  · exact report _
  · exact report _
  · exact breakOff
  · exact breakOff

end Gives

/-! ### Decoders of single values -/

/-- What the decoder gives of a node is what the tree means that the node shows. -/
def Means {α : Type} (decode : Scope → Node → Decoder α) (meaning : Tree → Option α) : Prop :=
  ∀ ⦃t : Tree⦄ ⦃scope : Scope⦄ ⦃node : Node⦄ ⦃cost : Nat⦄, t.Shown scope.anchors node cost →
    Gives cost (decode scope node) (meaning t)

/-- It is enough to decode the node that aliases lead to. -/
theorem means_of_read {α : Type} {decoder : Scope → Node → Decoder α} {decode : Node → Decoder α}
    {meaning : Tree → Option α}
    (hdecoder : ∀ scope node, decoder scope node = scope.read node decode)
    (hscalar : ∀ p s style, Gives 0 (decode (.scalar p s style)) (meaning (.scalar p.tag s style)))
    (hsequence : ∀ p items closed, Gives 0 (decode (.sequence p items closed)) none)
    (hmapping : ∀ p entries closed, Gives 0 (decode (.mapping p entries closed)) none)
    (hmeaning : ∀ tag items entries,
      meaning (.sequence tag items) = none ∧ meaning (.mapping tag entries) = none) :
    Means decoder meaning := by
  intro t scope node cost ht
  rw [hdecoder]
  cases t with
  | scalar tag s style =>
      obtain ⟨p, hnode, rfl, rfl⟩ := ht
      exact Gives.read (hnode ▸ hscalar p s style)
  | sequence tag items =>
      obtain ⟨p, nodes, c, hnode, -, -, rfl⟩ := ht
      rw [(hmeaning tag items []).1]
      exact (Gives.read (hnode ▸ hsequence p nodes true)).mono (Nat.add_le_add_left c.zero_le _)
  | mapping tag entries =>
      obtain ⟨p, nodes, c, hnode, -, -, rfl⟩ := ht
      rw [(hmeaning tag [] entries).2]
      exact (Gives.read (hnode ▸ hmapping p nodes true)).mono (Nat.add_le_add_left c.zero_le _)

theorem means_text (expected : String) : Means (decodeText expected) Tree.text? :=
  means_of_read (fun _ _ => rfl) (fun _ s _ => Gives.pure s) (fun _ _ _ => Gives.refuse _ _)
    (fun _ _ _ => Gives.refuse _ _) fun _ _ _ => ⟨rfl, rfl⟩

theorem means_nat (bound : Nat) (expected : String) :
    Means (decodeNat bound expected) (Tree.nat? bound) := by
  refine means_of_read (fun _ _ => rfl) (fun p s style => ?_) (fun _ _ _ => Gives.refuse _ _)
    (fun _ _ _ => Gives.refuse _ _) fun _ _ _ => ⟨rfl, rfl⟩
  have hnumeric : isNumeric ⟨none, p.tag, .origin⟩ style = isNumeric p style := rfl
  simp only [Tree.nat?, hnumeric]
  split
  · rename_i n heq
    rw [heq, Option.filter_some]
    by_cases hn : n < bound
    · simp only [hn, decide_true, if_true]
      exact Gives.pure n
    · simp only [hn, decide_false, if_false]
      exact Gives.report _
  · rename_i heq
    rw [heq]
    exact Gives.refuse _ _

theorem means_word : Means decodeWord Tree.word? :=
  fun _ _ _ _ ht => (means_nat _ _ ht).map Nat.toUInt64

theorem means_halfWord : Means decodeHalfWord Tree.halfWord? :=
  fun _ _ _ _ ht => (means_nat _ _ ht).map Nat.toUInt32

/-- What an alias leads to shows the same tree. -/
theorem Tree.Shown.resolve {anchors : Anchors} {t : Tree} {node : Node} {cost : Nat}
    (h : t.Shown anchors node cost) :
    ∃ c, t.Shown anchors (node.resolve anchors) c ∧ cost = detour node + c := by
  cases t with
  | scalar tag s style =>
      obtain ⟨p, hnode, htag, rfl⟩ := h
      refine ⟨0, ?_, rfl⟩
      rw [hnode]
      exact ⟨p, rfl, htag, rfl⟩
  | sequence tag items =>
      obtain ⟨p, nodes, c, hnode, htag, hitems, rfl⟩ := h
      refine ⟨c, ?_, rfl⟩
      rw [hnode]
      exact ⟨p, nodes, c, rfl, htag, hitems, (Nat.zero_add c).symm⟩
  | mapping tag entries =>
      obtain ⟨p, nodes, c, hnode, htag, hentries, rfl⟩ := h
      refine ⟨c, ?_, rfl⟩
      rw [hnode]
      exact ⟨p, nodes, c, rfl, htag, hentries, (Nat.zero_add c).symm⟩

theorem means_optionalWord : Means decodeOptionalWord Tree.optionalWord? := by
  intro t scope node cost ht
  obtain ⟨c, hshown, rfl⟩ := ht.resolve
  refine (Gives.follow scope node).bind (g := fun _ => t.optionalWord?) fun _ heq => ?_
  obtain rfl := Option.some.inj heq
  have hpresent := (means_word hshown).map some
  cases t with
  | scalar tag s style =>
      obtain ⟨p, hnode, rfl, -⟩ := ht
      rw [hnode] at hpresent ⊢
      cases style with
      | plain =>
          cases htag : p.tag with
          | none =>
              rw [htag] at hpresent
              simp only [Tree.optionalWord?, htag]
              split
              · exact (Gives.pure none).mono c.zero_le
              · exact hpresent
          | some tag =>
              rw [htag] at hpresent
              simp only [Tree.optionalWord?, htag]
              split
              · split
                · exact (Gives.pure none).mono c.zero_le
                · exact Gives.report _
              · exact hpresent
      | _ => exact hpresent
  | sequence tag items =>
      obtain ⟨p, nodes, c, hnode, -⟩ := ht
      rw [hnode] at hpresent ⊢
      exact hpresent
  | mapping tag entries =>
      obtain ⟨p, nodes, c, hnode, -⟩ := ht
      rw [hnode] at hpresent ⊢
      exact hpresent

theorem gives_modeOf (name : String) : Gives 0 (modeOf name) (SyncMode.ofText? name) := by
  unfold modeOf
  split
  · rename_i mode heq
    rw [heq]
    exact Gives.pure mode
  · rename_i heq
    rw [heq]
    exact Gives.report _

/-- A mode that a tag names is that mode if the scalar behind the tag is blank. -/
theorem gives_taggedMode (scope : Scope) (name : String) (p : Properties) (s : String)
    (style : ScalarStyle) :
    Gives 0 (decodeTaggedMode scope name (.scalar p s style))
      (if isBlankScalar s style then SyncMode.ofText? name else none) := by
  cases hblank : isBlankScalar s style with
  | true =>
      have hmode : Gives (0 + 0) (decodeTaggedMode scope name (.scalar p s style))
          ((SyncMode.ofText? name).bind some) := by
        refine (gives_modeOf name).bind fun mode _ => Gives.locate ?_ scope p.mark
        simp only [hblank, if_true]
        exact Gives.pure mode
      rwa [Option.bind_fun_some] at hmode
  | false =>
      have hmode : Gives (0 + 0) (decodeTaggedMode scope name (.scalar p s style))
          ((SyncMode.ofText? name).bind fun _ => none) := by
        refine (gives_modeOf name).bind fun mode _ => Gives.locate ?_ scope p.mark
        simp only [hblank, Bool.false_eq_true, if_false]
        exact Gives.report _
      rwa [Option.bind_fun_none] at hmode

/-- A collection is no mode, whatever its tag. -/
theorem gives_ownMode_of_collection (scope : Scope) (node : Node)
    (h : (∃ p items, node = .sequence p items true) ∨ ∃ p entries, node = .mapping p entries true) :
    Gives 0 (decodeOwnMode scope node) none := by
  have htagged : ∀ name, Gives 0 (decodeTaggedMode scope name node) none := by
    intro name
    have hmode : Gives (0 + 0) (decodeTaggedMode scope name node)
        ((SyncMode.ofText? name).bind fun _ => none) := by
      refine (gives_modeOf name).bind fun mode _ => Gives.locate ?_ scope _
      obtain ⟨p, items, rfl⟩ | ⟨p, entries, rfl⟩ := h <;> exact Gives.refuse _ _
    rwa [Option.bind_fun_none] at hmode
  obtain ⟨p, items, rfl⟩ | ⟨p, entries, rfl⟩ := h
  all_goals
    unfold decodeOwnMode
    dsimp only
    split
    · exact htagged _
    · exact (Gives.report _).locate scope _

theorem gives_ownMode {scope : Scope} {t : Tree} {node : Node} {cost : Nat}
    (h : t.Shown scope.anchors node cost) :
    Gives 0 (decodeOwnMode scope (node.resolve scope.anchors)) t.mode? := by
  cases t with
  | scalar tag s style =>
      obtain ⟨p, hnode, rfl, -⟩ := h
      rw [hnode]
      unfold decodeOwnMode
      cases hname : p.tag.bind Tag.name? with
      | some name =>
          simp only [Tree.mode?, hname]
          exact gives_taggedMode scope name p s style
      | none =>
          simp only [Tree.mode?, hname]
          exact (gives_modeOf s).locate scope p.mark
  | sequence tag items =>
      obtain ⟨p, nodes, c, hnode, -⟩ := h
      exact gives_ownMode_of_collection scope _ (.inl ⟨p, nodes, hnode⟩)
  | mapping tag entries =>
      obtain ⟨p, nodes, c, hnode, -⟩ := h
      exact gives_ownMode_of_collection scope _ (.inr ⟨p, nodes, hnode⟩)

theorem means_mode : Means decodeMode Tree.mode? := by
  intro t scope node cost ht
  have hown := gives_ownMode ht
  obtain ⟨c, -, rfl⟩ := ht.resolve
  refine Gives.mono ?_ (Nat.le_add_right (Tree.detour node) c)
  unfold decodeMode
  split
  · rename_i number mark
    exact (Gives.follow scope (.alias number mark)).bind (g := fun _ => t.mode?) fun node heq =>
      Option.some.inj heq ▸ hown.locate scope mark
  · rename_i hother
    have hnode : node.resolve scope.anchors = node := by
      unfold Node.resolve
      split
      · exact absurd rfl (hother _ _)
      · rfl
    rw [hnode] at hown
    exact hown.mono (Nat.zero_le _)

/-! ### Passing over -/

theorem isComplete_of_resolve {anchors : Anchors} {node : Node}
    (h : (node.resolve anchors).isComplete = true) : node.isComplete = true := by
  unfold Node.resolve at h
  split at h
  · rfl
  · exact h

mutual

/-- Nothing is missing from a node that shows a tree. -/
theorem Tree.Shown.isComplete {anchors : Anchors} : ∀ {t : Tree} {node : Node} {cost : Nat},
    t.Shown anchors node cost → node.isComplete = true
  | .scalar .., _, _, ⟨p, hnode, _⟩ => isComplete_of_resolve (by rw [hnode]; rfl)
  | .sequence .., _, _, ⟨p, nodes, c, hnode, _, hitems, _⟩ =>
    isComplete_of_resolve (by rw [hnode, Node.isComplete, hitems.areComplete]; rfl)
  | .mapping .., _, _, ⟨p, nodes, c, hnode, _, hentries, _⟩ =>
    isComplete_of_resolve (by rw [hnode, Node.isComplete, hentries.areComplete]; rfl)

theorem Tree.ItemsShown.areComplete {anchors : Anchors} :
    ∀ {items : List Tree} {nodes : List Node} {cost : Nat},
    Tree.ItemsShown anchors items nodes cost → Node.areComplete nodes = true
  | [], _, _, ⟨hnodes, _⟩ => hnodes ▸ rfl
  | _ :: _, _, _, ⟨node, others, c, c', hnodes, hnode, hothers, _⟩ => by
    rw [hnodes, Node.areComplete, hnode.isComplete, hothers.areComplete]
    rfl

theorem Tree.EntriesShown.areComplete {anchors : Anchors} :
    ∀ {entries : List (Tree × Tree)} {nodes : List (Node × Node)} {cost : Nat},
    Tree.EntriesShown anchors entries nodes cost → Node.entriesAreComplete nodes = true
  | [], _, _, ⟨hnodes, _⟩ => hnodes ▸ rfl
  | _ :: _, _, _, ⟨key, value, others, c, c', c'', hnodes, hkey, hvalue, hothers, _⟩ => by
    rw [hnodes, Node.entriesAreComplete, hkey.isComplete, hvalue.isComplete, hothers.areComplete]
    rfl

end

theorem Gives.passOver {anchors : Anchors} {t : Tree} {node : Node} {cost : Nat}
    (h : t.Shown anchors node cost) : Gives 0 (BurstRing.passOver node) (some ()) := by
  rw [BurstRing.passOver, if_pos h.isComplete]
  exact Gives.pure ()

end BurstRing
