import BurstRing.Proofs.Config.Schema
import Mathlib.Data.List.Pairwise

/-!
# The entries of a mapping

What a mapping means is a fold over its entries, so the order of the entries could count.  It does
not, because settings have places of their own in the draft (`Slot.Apart`): two entries put in
different places can be exchanged, two for one place are refused in either order, and exchanging
neighbours is enough (`Schema.Tidy.read?_perm`).

From this, what else does not count: a key that names no setting (`Schema.read?_add`), and a setting
that is written as what it is without (`Schema.Tidy.read?_spell`), for which the entry may be taken
to come last.
-/

namespace BurstRing

open Yaml

variable {ρ α : Type}

/-! ### Settings that do not interfere -/

/-- The settings have places of their own: what is put in one place is not seen in the other. -/
structure Slot.Apart (f g : Slot ρ) : Prop where
  isSet : ∀ {t draft draft'}, g.put t draft = some draft' →
    f.field.isSet draft' = f.field.isSet draft
  isSet' : ∀ {t draft draft'}, f.put t draft = some draft' →
    g.field.isSet draft' = g.field.isSet draft
  comm : ∀ t t' draft, (f.put t draft).bind (g.put t') = (g.put t' draft).bind (f.put t)

namespace Slot.Apart

variable {f g : Slot ρ}

theorem symm (h : f.Apart g) : g.Apart f :=
  ⟨h.isSet', h.isSet, fun t t' draft => (h.comm t' t draft).symm⟩

/-- Settings in optional places are apart if the places are. -/
theorem of {β γ : Type} {name name' : String} {get : ρ → Option β} {get' : ρ → Option γ}
    {set : β → ρ → ρ} {set' : γ → ρ → ρ} {decode : Scope → Node → Decoder β}
    {decode' : Scope → Node → Decoder γ} {meaning : Tree → Option β} {meaning' : Tree → Option γ}
    {hdecode : Means decode meaning} {hdecode' : Means decode' meaning'}
    {hget : ∀ b draft, get (set b draft) = some b}
    {hget' : ∀ c draft, get' (set' c draft) = some c}
    (hkeeps : ∀ c draft, get (set' c draft) = get draft)
    (hkeeps' : ∀ b draft, get' (set b draft) = get' draft)
    (hcomm : ∀ b c draft, set' c (set b draft) = set b (set' c draft)) :
    (Slot.of name get set hdecode hget).Apart (Slot.of name' get' set' hdecode' hget') where
  isSet := by
    intro t draft draft' h
    obtain ⟨c, -, rfl⟩ := Option.map_eq_some_iff.mp h
    exact congrArg Option.isSome (hkeeps c draft)
  isSet' := by
    intro t draft draft' h
    obtain ⟨b, -, rfl⟩ := Option.map_eq_some_iff.mp h
    exact congrArg Option.isSome (hkeeps' b draft)
  comm t t' draft := by
    cases h : meaning t <;> cases h' : meaning' t' <;> simp [Slot.of, h, h', hcomm]

theorem put_offer (h : f.Apart g) (t t' : Tree) (draft : ρ) : (f.put t draft).bind (g.offer t') =
    if g.field.isSet draft then none else (f.put t draft).bind (g.put t') := by
  cases hput : f.put t draft with
  | none => simp
  | some draft' =>
      rw [Option.bind_some, Option.bind_some, Slot.offer, h.isSet' hput]

theorem offer_comm (h : f.Apart g) (t t' : Tree) (draft : ρ) :
    (f.offer t draft).bind (g.offer t') = (g.offer t' draft).bind (f.offer t) := by
  have hf : (f.offer t draft).bind (g.offer t') = if f.field.isSet draft then none
      else if g.field.isSet draft then none else (f.put t draft).bind (g.put t') := by
    rw [Slot.offer]
    split
    · rfl
    · exact h.put_offer t t' draft
  have hg : (g.offer t' draft).bind (f.offer t) = if g.field.isSet draft then none
      else if f.field.isSet draft then none else (g.put t' draft).bind (f.put t) := by
    rw [Slot.offer]
    split
    · rfl
    · exact h.symm.put_offer t' t draft
  rw [hf, hg, h.comm]
  split <;> split <;> rfl

end Slot.Apart

instance : Std.Symm (@Slot.Apart ρ) := ⟨fun _ _ h => h.symm⟩

theorem Slot.offer_twice (f : Slot ρ) (t t' : Tree) (draft : ρ) :
    (f.offer t draft).bind (f.offer t') = none := by
  rw [Option.bind_eq_none_iff]
  intro draft' h
  have hput : f.put t draft = some draft' := (Option.ite_none_left_eq_some.mp h).2
  rw [Slot.offer, if_pos (f.sets hput)]

/-- A fold over a list does not depend on its order if two steps can be exchanged. -/
theorem foldlM_perm {ε : Type} {step : ρ → ε → Option ρ}
    (hstep : ∀ draft e e', (step draft e).bind (step · e') = (step draft e').bind (step · e))
    {es es' : List ε} (h : es.Perm es') :
    ∀ draft, es.foldlM step draft = es'.foldlM step draft := by
  induction h with
  | nil => exact fun _ => rfl
  | cons e _ ih =>
      intro draft
      rw [List.foldlM_cons, List.foldlM_cons]
      exact Option.bind_congr fun draft' _ => ih draft'
  | swap e e' es =>
      intro draft
      simp only [List.foldlM_cons, Option.bind_eq_bind, ← Option.bind_assoc, hstep draft e e']
  | trans _ _ ih ih' => exact fun draft => (ih draft).trans (ih' draft)

namespace Schema

variable {s : Schema ρ α}

/-- The settings have places of their own, and none is set at the start. -/
structure Tidy (s : Schema ρ α) : Prop where
  apart : s.slots.Pairwise Slot.Apart
  unset : (s.slots.all fun slot => !slot.field.isSet s.start) = true

theorem slot?_eq_some {name : String} {slot : Slot ρ} (h : s.slot? name = some slot) :
    slot ∈ s.slots ∧ slot.field.name = name :=
  ⟨List.mem_of_find?_eq_some h, beq_iff_eq.mp (List.find?_some h :)⟩

theorem Tidy.apart_of_ne (h : s.Tidy) {name name' : String} {slot slot' : Slot ρ}
    (hslot : s.slot? name = some slot) (hslot' : s.slot? name' = some slot') (hne : name ≠ name') :
    slot.Apart slot' := by
  obtain ⟨hmem, hname⟩ := slot?_eq_some hslot
  obtain ⟨hmem', hname'⟩ := slot?_eq_some hslot'
  refine h.apart.forall hmem hmem' ?_
  rintro rfl
  exact hne (hname.symm.trans hname')

theorem step_nameless {draft : ρ} {k v : Tree} (hk : k.text? = none) :
    s.step draft (k, v) = none := by
  rw [step, hk, Option.bind_none]

theorem step_unknown {draft : ρ} {k v : Tree} {name : String} (hk : k.text? = some name)
    (hslot : s.slot? name = none) : s.step draft (k, v) = some draft := by
  simp only [step, hk, hslot, Option.bind_some]

theorem step_slot {draft : ρ} {k v : Tree} {name : String} {slot : Slot ρ}
    (hk : k.text? = some name) (hslot : s.slot? name = some slot) :
    s.step draft (k, v) = slot.offer v draft := by
  simp only [step, hk, hslot, Option.bind_some]

/-- Two entries can be read in either order. -/
theorem Tidy.step_comm (h : s.Tidy) (draft : ρ) (e e' : Tree × Tree) :
    (s.step draft e).bind (s.step · e') = (s.step draft e').bind (s.step · e) := by
  obtain ⟨k, v⟩ := e
  obtain ⟨k', v'⟩ := e'
  cases hk : k.text? with
  | none => simp only [step_nameless hk, Option.bind_none, Option.bind_fun_none]
  | some name =>
      cases hk' : k'.text? with
      | none => simp only [step_nameless hk', Option.bind_none, Option.bind_fun_none]
      | some name' =>
          cases hslot : s.slot? name with
          | none => simp only [step_unknown hk hslot, Option.bind_some, Option.bind_fun_some]
          | some slot =>
              cases hslot' : s.slot? name' with
              | none => simp only [step_unknown hk' hslot', Option.bind_some, Option.bind_fun_some]
              | some slot' =>
                  simp only [step_slot hk hslot, step_slot hk' hslot']
                  by_cases hname : name = name'
                  · obtain rfl : slot = slot' := Option.some.inj (by rw [← hslot, ← hslot', hname])
                    exact (slot.offer_twice v v' draft).trans (slot.offer_twice v' v draft).symm
                  · exact (h.apart_of_ne hslot hslot' hname).offer_comm v v' draft

/-! ### What does not change what a mapping means -/

/-- The order of the entries does not count. -/
theorem Tidy.read?_perm (h : s.Tidy) {tag : Option Tag} {entries entries' : List (Tree × Tree)}
    (hperm : entries.Perm entries') :
    s.read? (.mapping tag entries) = s.read? (.mapping tag entries') :=
  congrArg (fun draft => draft.bind s.finish) (foldlM_perm h.step_comm hperm s.start)

/-- A key that names no setting does not count. -/
theorem read?_add {tag : Option Tag} {entries : List (Tree × Tree)} {k v : Tree} {name : String}
    (hk : k.text? = some name) (hname : s.slot? name = none) :
    s.read? (.mapping tag ((k, v) :: entries)) = s.read? (.mapping tag entries) := by
  simp only [read?, Tree.entries?, Option.bind_some, List.foldlM_cons, step_unknown hk hname,
    Option.bind_eq_bind]

/-- A setting that no entry names is as it was. -/
theorem Tidy.isSet_of_absent (h : s.Tidy) {name : String} {slot : Slot ρ}
    (hslot : s.slot? name = some slot) {entries : List (Tree × Tree)} :
    ∀ {draft draft' : ρ}, (∀ e ∈ entries, e.1.text? ≠ some name) →
      entries.foldlM s.step draft = some draft' →
      slot.field.isSet draft' = slot.field.isSet draft := by
  induction entries with
  | nil =>
      rintro draft draft' - ⟨⟩
      rfl
  | cons e entries ih =>
      intro draft draft' habsent hread
      rw [List.forall_mem_cons] at habsent
      rw [List.foldlM_cons, Option.bind_eq_bind, Option.bind_eq_some_iff] at hread
      obtain ⟨draft₁, hstep, hread⟩ := hread
      rw [ih habsent.2 hread]
      obtain ⟨name', hname', hstep⟩ := Option.bind_eq_some_iff.mp hstep
      cases hslot' : s.slot? name' with
      | none =>
          rw [hslot'] at hstep
          rw [Option.some.inj hstep]
      | some slot' =>
          rw [hslot'] at hstep
          have hne : name ≠ name' := fun heq => habsent.1 (heq ▸ hname')
          exact (h.apart_of_ne hslot hslot' hne).isSet (Option.ite_none_left_eq_some.mp hstep).2

/-- Writing this for the setting does not change what is made of a draft in which it is not set. -/
def Redundant (s : Schema ρ α) (name : String) (t : Tree) : Prop :=
  ∃ slot, s.slot? name = some slot ∧ ∀ draft, slot.field.isSet draft = false →
    ∃ draft', slot.put t draft = some draft' ∧ s.finish draft' = s.finish draft

/-- A setting that is absent may be written as what it is without. -/
theorem Tidy.read?_spell (h : s.Tidy) {tag : Option Tag} {entries : List (Tree × Tree)} {k v : Tree}
    {name : String} (hk : k.text? = some name) (hv : s.Redundant name v)
    (habsent : ∀ e ∈ entries, e.1.text? ≠ some name) :
    s.read? (.mapping tag ((k, v) :: entries)) = s.read? (.mapping tag entries) := by
  obtain ⟨slot, hslot, hput⟩ := hv
  -- The entry may as well come last, where the draft has everything else.
  rw [h.read?_perm (List.perm_append_singleton (k, v) entries).symm]
  simp only [read?, Tree.entries?, Option.bind_some, List.foldlM_append, Option.bind_eq_bind,
    Option.bind_assoc, List.foldlM_cons, List.foldlM_nil, Option.pure_def, Option.bind_fun_some]
  refine Option.bind_congr fun draft hdraft => ?_
  have hunset : slot.field.isSet draft = false := by
    rw [h.isSet_of_absent hslot habsent hdraft]
    have hstart := List.all_eq_true.mp h.unset slot (slot?_eq_some hslot).1
    rwa [Bool.not_eq_true'] at hstart
  obtain ⟨draft', hdraft', hfinish⟩ := hput draft hunset
  simp only [step_slot hk hslot, Slot.offer, hunset, Bool.false_eq_true, if_false, hdraft',
    Option.bind_some, hfinish]

/-- An entry may be written as another that does the same to every draft. -/
theorem read?_entry {tag : Option Tag} {entries : List (Tree × Tree)} {e e' : Tree × Tree}
    (h : ∀ draft, s.step draft e = s.step draft e') :
    s.read? (.mapping tag (e :: entries)) = s.read? (.mapping tag (e' :: entries)) := by
  simp only [read?, Tree.entries?, Option.bind_some, List.foldlM_cons, h]

/-- Values that are put in their places alike do the same to every draft. -/
theorem step_value {k v v' : Tree} (hput : ∀ name, k.text? = some name →
      ∀ slot, s.slot? name = some slot → ∀ draft, slot.put v draft = slot.put v' draft)
    (draft : ρ) : s.step draft (k, v) = s.step draft (k, v') := by
  refine Option.bind_congr fun name hname => ?_
  cases hslot : s.slot? name with
  | none => rfl
  | some slot => simp only [Slot.offer, hput name hname slot hslot]

theorem slot?_eq_none {name : String} {names : List String}
    (hnames : s.slots.map (·.field.name) = names) (h : name ∉ names) : s.slot? name = none := by
  rw [slot?, List.find?_eq_none]
  intro slot hslot heq
  exact h (hnames ▸ eq_of_beq heq ▸ List.mem_map_of_mem hslot)

theorem redundant_of {β : Type} {name : String} {get : ρ → Option β} {set : β → ρ → ρ}
    {decode : Scope → Node → Decoder β} {meaning : Tree → Option β} {hdecode : Means decode meaning}
    {hget : ∀ b draft, get (set b draft) = some b} {t : Tree} {b : β}
    (hslot : s.slot? name = some (.of name get set hdecode hget)) (ht : meaning t = some b)
    (hfinish : ∀ draft, get draft = none → s.finish (set b draft) = s.finish draft) :
    s.Redundant name t := by
  refine ⟨_, hslot, fun draft hunset => ⟨set b draft, ?_, hfinish draft ?_⟩⟩
  · exact congrArg (Option.map _) ht
  · exact Option.not_isSome_iff_eq_none.mp (Bool.eq_false_iff.mp hunset)

end Schema

end BurstRing
