import BurstRing.Cpu.CpuList
import BurstRing.Proofs.Text.Grammar
import Mathlib.Data.List.Forall2
import Mathlib.Data.List.Induction
import Mathlib.Data.List.Intervals

/-!
# What a CPU list names

A list is written as parts with commas between.  A part that is an item, a number or a range of
numbers with blanks around it, names what the item stands for (`CpuItem.cpus`), and any other part
names nothing (`CpuList.Names`).  Reading finds the numbers that the parts name, in order, so no part
has a say in what another one means.

A part can still keep the others from being read.  The numbers are put into one vector, whose room
grows with them (`CpuList.roomFor`), and there is an end to what a vector can have: a list is read
just when the vector stays within that (`CpuList.read_eq_ok_iff`), and else the part with which it
does not ends the program (`CpuList.read_eq_error`).  The main statement is `CpuList.reads_parts`.
-/

namespace BurstRing

open Text

/-- What stands between two commas, if it is well written. -/
inductive CpuItem where
  | single (cpu : Nat)
  | range (lo hi : Nat)

namespace CpuItem

/-- The numbers that an item stands for: all from `lo` to `hi` for a range, and none if `lo` is
beyond `hi`. -/
def cpus : CpuItem → List Nat
  | .single cpu => [cpu]
  | .range lo hi => List.Ico lo (hi + 1)

/-- The ways to write an item.  Its numbers are 64-bit words. -/
inductive IsWritten : List Char → CpuItem → Prop
  | single {cs cpu} : IsNumeral (2 ^ 64) cs cpu → IsWritten cs (.single cpu)
  | range {before after lo hi} : IsNumeral (2 ^ 64) before lo → IsNumeral (2 ^ 64) after hi →
      IsWritten (before ++ '-' :: after) (.range lo hi)

/-- The part is the item, with blanks around it. -/
def Fills (item : CpuItem) (part : List Char) : Prop :=
  ∃ before text after, part = before ++ text ++ after ∧ AllBlank before ∧ AllBlank after ∧
    IsWritten text item

end CpuItem

namespace CpuList

/-- What a part of a list names. -/
inductive Names : List Char → List Nat → Prop
  | item {part item} : CpuItem.Fills item part → Names part item.cpus
  | nothing {part} : ',' ∉ part → (∀ item, ¬ CpuItem.Fills item part) → Names part []

/-- A number, but one that does not fit a word. -/
def IsTooLarge (cs : List Char) : Prop := ∃ n, IsNumeral (n + 1) cs n ∧ 2 ^ 64 ≤ n

/-- Ways for a part to be no item. -/
inductive Malformed : List Char → Prop
  | empty {part} : AllBlank part → Malformed part
  | secondDash (before between after : List Char) :
      Malformed (before ++ '-' :: (between ++ '-' :: after))
  | blankBeforeDash (before after : List Char) {c : Char} : isBlank c = true →
      Malformed ((before ++ [c]) ++ '-' :: after)
  | blankAfterDash (before after : List Char) {c : Char} : isBlank c = true →
      Malformed (before ++ '-' :: (c :: after))
  /-- A character that numbers do not have. -/
  | foreign {part} {c : Char} : c ∈ part → isBlank c = false → c.isDigit = false → c ≠ '+' →
      c ≠ '-' → Malformed part
  | largeNumber {text before after} : AllBlank before → AllBlank after → IsTooLarge text →
      Malformed (before ++ text ++ after)
  | largeStart {lo before} (after : List Char) : AllBlank before → IsTooLarge lo →
      Malformed ((before ++ lo) ++ '-' :: after)
  | largeEnd {hi after} (before : List Char) : AllBlank after → IsTooLarge hi →
      Malformed (before ++ '-' :: (hi ++ after))

variable {cs text part : List Char} {item : CpuItem}

/-! ### Items and their characters -/

theorem isBlank_of_isDigit {c : Char} (h : c.isDigit = true) : isBlank c = false := by
  rw [isDigit_iff] at h
  simp [isBlank]
  omega

section

variable {bound n : Nat} (h : IsNumeral bound cs n)

include h

theorem not_blank_of_numeral : ∀ c ∈ cs, isBlank c = false := by
  intro c hc
  rcases h.chars c hc with hdigit | rfl
  · exact isBlank_of_isDigit hdigit
  · rfl

theorem dash_not_mem_numeral : '-' ∉ cs := fun hdash =>
  (h.chars '-' hdash).elim (absurd · (by decide)) (absurd · (by decide))

/-- Blanks around a number are not part of it. -/
theorem trim_numeral {before after : List Char} (hbefore : AllBlank before)
    (hafter : AllBlank after) : trim (before ++ cs ++ after) = cs :=
  TrimsTo.trim_eq {
    around := ⟨before, after, rfl, hbefore, hafter⟩
    head_not_blank := fun c hc => not_blank_of_numeral h c (List.mem_of_mem_head? hc)
    last_not_blank := fun c hc => not_blank_of_numeral h c (List.mem_of_mem_getLast? hc) }

theorem trim_blank_numeral {before : List Char} (hbefore : AllBlank before) :
    trim (before ++ cs) = cs := by
  rw [← List.append_nil (before ++ cs), trim_numeral h hbefore allBlank_nil]

theorem trim_numeral_blank {after : List Char} (hafter : AllBlank after) :
    trim (cs ++ after) = cs := by
  rw [← List.nil_append cs, trim_numeral h allBlank_nil hafter]
  rfl

end

theorem dash_not_mem_blank (h : AllBlank cs) : '-' ∉ cs := fun hdash =>
  absurd (h '-' hdash) (by decide)

theorem isWritten_chars (h : CpuItem.IsWritten text item) :
    ∀ c ∈ text, c.isDigit = true ∨ c = '+' ∨ c = '-' := by
  cases h with
  | single h => exact fun c hc => (h.chars c hc).imp_right .inl
  | range hlo hhi =>
      intro c hc
      rcases List.mem_append.mp hc with hc | hc
      · exact (hlo.chars c hc).imp_right .inl
      · rcases List.mem_cons.mp hc with rfl | hc
        · exact .inr (.inr rfl)
        · exact (hhi.chars c hc).imp_right .inl

theorem isWritten_not_blank (h : CpuItem.IsWritten text item) :
    ∀ c ∈ text, isBlank c = false := by
  intro c hc
  rcases isWritten_chars h c hc with hdigit | rfl | rfl
  · exact isBlank_of_isDigit hdigit
  · rfl
  · rfl

theorem isWritten_ne_nil (h : CpuItem.IsWritten text item) : text ≠ [] := by
  cases h with
  | single h => exact h.ne_nil
  | range => simp

/-- To fill a part is to be written in it between the blanks. -/
theorem fills_iff : CpuItem.Fills item part ↔ CpuItem.IsWritten (trim part) item := by
  constructor
  · rintro ⟨before, text, after, rfl, hbefore, hafter, hwritten⟩
    have htrims : TrimsTo (before ++ text ++ after) text :=
      ⟨⟨before, after, rfl, hbefore, hafter⟩,
        fun c hc => isWritten_not_blank hwritten c (List.mem_of_mem_head? hc),
        fun c hc => isWritten_not_blank hwritten c (List.mem_of_mem_getLast? hc)⟩
    rwa [htrims.trim_eq]
  · intro hwritten
    obtain ⟨before, after, hpart, hbefore, hafter⟩ := (trimsTo_trim part).around
    exact ⟨before, _, after, hpart, hbefore, hafter, hwritten⟩

/-- The dash of a part that is an item is that of a range. -/
theorem fills_dash {before after : List Char} (h : CpuItem.Fills item (before ++ '-' :: after)) :
    ∃ front lo hi back m n, before = front ++ lo ∧ after = hi ++ back ∧ AllBlank front ∧
      AllBlank back ∧ IsNumeral (2 ^ 64) lo m ∧ IsNumeral (2 ^ 64) hi n := by
  obtain ⟨front, text, back, hpart, hfront, hback, hwritten⟩ := h
  cases hwritten with
  | single h =>
      have hdash : '-' ∈ front ++ text ++ back := hpart ▸ by simp
      simp [dash_not_mem_blank hfront, dash_not_mem_blank hback, dash_not_mem_numeral h] at hdash
  | @range lo hi m n hlo hhi =>
      have hpart' : (front ++ lo) ++ '-' :: (hi ++ back) = before ++ '-' :: after := by
        simp [hpart]
      rw [List.append_cons_inj_of_notMem] at hpart'
      · exact ⟨front, lo, hi, back, m, n, hpart'.1.symm, hpart'.2.2.symm, hfront, hback, hlo, hhi⟩
      · simp [dash_not_mem_blank hfront, dash_not_mem_numeral hlo]
      · simp [dash_not_mem_blank hback, dash_not_mem_numeral hhi]

/-- What is malformed is no item. -/
theorem Malformed.not_fills (h : Malformed part) : ¬ CpuItem.Fills item part := by
  intro hfills
  cases h with
  | empty hblank =>
      obtain ⟨before, text, after, rfl, -, -, hwritten⟩ := hfills
      obtain ⟨c, rest, rfl⟩ := List.exists_cons_of_ne_nil (isWritten_ne_nil hwritten)
      have hc := isWritten_not_blank hwritten c List.mem_cons_self
      rw [hblank c (by simp)] at hc
      cases hc
  | secondDash before between after =>
      obtain ⟨front, lo, hi, back, m, n, -, hafter, -, hback, -, hhi⟩ := fills_dash hfills
      have hdash : '-' ∈ hi ++ back := hafter ▸ by simp
      simp [dash_not_mem_blank hback, dash_not_mem_numeral hhi] at hdash
  | @blankBeforeDash before after c hc =>
      obtain ⟨front, lo, hi, back, m, n, hbefore, -, -, -, hlo, -⟩ := fills_dash hfills
      have hlast := congrArg List.getLast? hbefore
      rw [List.getLast?_concat, List.getLast?_append_of_ne_nil _ hlo.ne_nil] at hlast
      have hblank := not_blank_of_numeral hlo c (List.mem_of_mem_getLast? hlast.symm)
      rw [hc] at hblank
      cases hblank
  | @blankAfterDash before after c hc =>
      obtain ⟨front, lo, hi, back, m, n, -, hafter, -, -, -, hhi⟩ := fills_dash hfills
      obtain ⟨d, rest, rfl⟩ := List.exists_cons_of_ne_nil hhi.ne_nil
      obtain ⟨rfl, -⟩ := List.cons.inj hafter
      have hblank := not_blank_of_numeral hhi c List.mem_cons_self
      rw [hc] at hblank
      cases hblank
  | @foreign _ c hmem hblank hdigit hplus hdash =>
      obtain ⟨before, text, after, rfl, hbefore, hafter, hwritten⟩ := hfills
      simp only [List.mem_append] at hmem
      rcases hmem with (hmem | hmem) | hmem
      · rw [hbefore c hmem] at hblank
        cases hblank
      · rcases isWritten_chars hwritten c hmem with h | h | h
        · rw [h] at hdigit
          cases hdigit
        · exact hplus h
        · exact hdash h
      · rw [hafter c hmem] at hblank
        cases hblank
  | @largeNumber text before after hbefore hafter hlarge =>
      obtain ⟨n, hn, hlarge⟩ := hlarge
      rw [fills_iff, trim_numeral hn hbefore hafter] at hfills
      cases hfills with
      | single h =>
          obtain ⟨-, -, -, -, -, hlt⟩ := id h
          exact absurd (h.unique hn ▸ hlt) (Nat.not_lt.mpr hlarge)
      | range => exact dash_not_mem_numeral hn (by simp)
  | @largeStart lo before after hbefore hlarge =>
      obtain ⟨n, hn, hlarge⟩ := hlarge
      obtain ⟨front, lo', hi, back, m, -, hstart, -, hfront, -, hlo', -⟩ := fills_dash hfills
      have hsame := trim_blank_numeral hn hbefore
      rw [hstart, trim_blank_numeral hlo' hfront] at hsame
      subst hsame
      obtain ⟨-, -, -, -, -, hlt⟩ := id hlo'
      exact absurd (hlo'.unique hn ▸ hlt) (Nat.not_lt.mpr hlarge)
  | @largeEnd hi after before hafter hlarge =>
      obtain ⟨n, hn, hlarge⟩ := hlarge
      obtain ⟨front, lo, hi', back, -, m, -, hend, -, hback, -, hhi'⟩ := fills_dash hfills
      have hsame := trim_numeral_blank hn hafter
      rw [hend, trim_numeral_blank hhi' hback] at hsame
      subst hsame
      obtain ⟨-, -, -, -, -, hlt⟩ := id hhi'
      exact absurd (hhi'.unique hn ▸ hlt) (Nat.not_lt.mpr hlarge)

/-! ### Reading one part -/

theorem readWord_eq_ok_iff {w : UInt64} :
    readWord cs = .ok w ↔ IsNumeral (2 ^ 64) cs w.toNat := by
  have hnumeral : ∀ {n}, readUnsigned 10 UInt64.size cs = .ok n ↔ IsNumeral (2 ^ 64) cs n :=
    readUnsigned_eq_ok_iff (by decide)
  rw [← hnumeral, readWord]
  cases hread : readUnsigned 10 UInt64.size cs with
  | error e => exact iff_of_false nofun nofun
  | ok n =>
      obtain ⟨-, -, -, -, -, hlt⟩ := hnumeral.mp hread
      change Except.ok n.toUInt64 = Except.ok w ↔ _
      rw [Except.ok.injEq, Except.ok.injEq, ← UInt64.toNat_inj, UInt64.toNat_ofNat_of_lt' hlt]

theorem readWord_eq_ok {n : Nat} (h : IsNumeral (2 ^ 64) cs n) :
    ∃ w : UInt64, readWord cs = .ok w ∧ w.toNat = n := by
  obtain ⟨-, -, -, -, -, hlt⟩ := id h
  have hn : n.toUInt64.toNat = n := UInt64.toNat_ofNat_of_lt' hlt
  exact ⟨n.toUInt64, readWord_eq_ok_iff.mpr (hn.symm ▸ h), hn⟩

theorem map_toNat_cpus (lo hi : UInt64) :
    (Span.cpus ⟨lo, hi.toNat + 1 - lo.toNat⟩).map UInt64.toNat =
      List.Ico lo.toNat (hi.toNat + 1) := by
  rw [Span.cpus, List.map_map, List.Ico, List.range'_eq_map_range]
  refine List.map_congr_left fun i hi' => ?_
  rw [List.mem_range] at hi'
  dsimp only at hi' ⊢
  have hhi := hi.toNat_lt
  have hi'' : i.toUInt64.toNat = i := UInt64.toNat_ofNat_of_lt' (by rw [UInt64.size]; omega)
  rw [Function.comp_apply, UInt64.toNat_add, hi'', Nat.mod_eq_of_lt (by omega)]

theorem readItem_of_isWritten (h : CpuItem.IsWritten text item) :
    (readItem text).cpus.map UInt64.toNat = item.cpus := by
  cases h with
  | single h =>
      obtain ⟨w, hw, rfl⟩ := readWord_eq_ok h
      simp [readItem, cutFirst_of_not_mem (dash_not_mem_numeral h), hw, CpuItem.cpus, Span.cpus]
  | range hlo hhi =>
      obtain ⟨lo, hreadLo, rfl⟩ := readWord_eq_ok hlo
      obtain ⟨hi, hreadHi, rfl⟩ := readWord_eq_ok hhi
      simp only [readItem, cutFirst_append (dash_not_mem_numeral hlo), hreadLo, hreadHi,
        CpuItem.cpus]
      exact map_toNat_cpus lo hi

theorem readItem_of_not_isWritten (h : ∀ item, ¬ CpuItem.IsWritten text item) :
    readItem text = .none := by
  by_cases hdash : '-' ∈ text
  · obtain ⟨before, after, rfl, hbefore⟩ := List.eq_append_cons_of_mem hdash
    cases hlo : readWord before with
    | error e => simp [readItem, cutFirst_append hbefore, hlo]
    | ok lo =>
        cases hhi : readWord after with
        | error e => simp [readItem, cutFirst_append hbefore, hlo, hhi]
        | ok hi =>
            exact absurd (.range (readWord_eq_ok_iff.mp hlo) (readWord_eq_ok_iff.mp hhi)) (h _)
  · cases hcpu : readWord text with
    | error e => simp [readItem, cutFirst_of_not_mem hdash, hcpu]
    | ok cpu => exact absurd (.single (readWord_eq_ok_iff.mp hcpu)) (h _)

/-- A part gives the numbers that it names. -/
theorem Names.readItem {cpus : List Nat} (h : Names part cpus) :
    (CpuList.readItem (trim part)).cpus.map UInt64.toNat = cpus := by
  cases h with
  | item hfills => exact readItem_of_isWritten (fills_iff.mp hfills)
  | nothing _ hnone =>
      rw [readItem_of_not_isWritten fun item => fills_iff.not.mp (hnone item)]
      rfl

theorem Names.count_eq {cpus : List Nat} (h : Names part cpus) :
    (CpuList.readItem (trim part)).count = cpus.length := by
  rw [← h.readItem, List.length_map, Span.length_cpus]

theorem Names.comma_not_mem {cpus : List Nat} (h : Names part cpus) : ',' ∉ part := by
  cases h with
  | nothing hcomma => exact hcomma
  | item hfills =>
      obtain ⟨before, text, after, rfl, hbefore, hafter, hwritten⟩ := hfills
      have hblank : ∀ {cs}, AllBlank cs → ',' ∉ cs := fun h hcomma =>
        absurd (h ',' hcomma) (by decide)
      have htext : ',' ∉ text := fun hcomma => by
        simpa using isWritten_chars hwritten ',' hcomma
      simp [hblank hbefore, hblank hafter, htext]

theorem exists_names (hcomma : ',' ∉ part) : ∃ cpus, Names part cpus := by
  by_cases hfills : ∃ item, CpuItem.Fills item part
  · obtain ⟨item, hfills⟩ := hfills
    exact ⟨_, .item hfills⟩
  · exact ⟨[], .nothing hcomma (not_exists.mp hfills)⟩

/-! ### The room of a vector -/

theorem le_grown (capacity n : Nat) : n ≤ grown capacity n := by
  grind [grown]

theorem capacity_le_grown (capacity n : Nat) : capacity ≤ grown capacity n := by
  grind [grown]

/-- A vector gets at most twice the room that it needs, or room for four. -/
theorem grown_le {capacity held n : Nat} (h : capacity ≤ max 4 (2 * held)) (hn : held ≤ n) :
    grown capacity n ≤ max 4 (2 * n) := by
  grind [grown]

/-- The room of a vector that has room for `capacity` numbers and holds `n`, after it was made to
hold so many more, one count after another. -/
def roomAfter (capacity n : Nat) : List Nat → Nat
  | [] => capacity
  | count :: counts => roomAfter (grown capacity (n + count)) (n + count) counts

/-- The room of a new vector after it was made to hold so many numbers, one count after another. -/
def roomFor (counts : List Nat) : Nat := roomAfter 0 0 counts

theorem roomAfter_append (counts counts' : List Nat) : ∀ capacity n,
    roomAfter capacity n (counts ++ counts') =
      roomAfter (roomAfter capacity n counts) (n + counts.sum) counts' := by
  induction counts with
  | nil => intro capacity n; rfl
  | cons count counts ih =>
      intro capacity n
      rw [List.cons_append, roomAfter, roomAfter, ih, List.sum_cons, Nat.add_assoc]

theorem capacity_le_roomAfter (counts : List Nat) : ∀ capacity n,
    capacity ≤ roomAfter capacity n counts := by
  induction counts with
  | nil => intro capacity n; exact Nat.le_refl _
  | cons count counts ih => intro capacity n; exact (capacity_le_grown _ _).trans (ih _ _)

theorem sum_le_roomAfter (counts : List Nat) : ∀ {capacity n}, n ≤ capacity →
    n + counts.sum ≤ roomAfter capacity n counts := by
  induction counts with
  | nil => intro capacity n h; exact h
  | cons count counts ih =>
      intro capacity n _
      rw [List.sum_cons, ← Nat.add_assoc]
      exact ih (le_grown _ _)

theorem roomAfter_le (counts : List Nat) : ∀ {capacity n}, capacity ≤ max 4 (2 * n) →
    roomAfter capacity n counts ≤ max 4 (2 * (n + counts.sum)) := by
  induction counts with
  | nil => intro capacity n h; exact h
  | cons count counts ih =>
      intro capacity n h
      rw [List.sum_cons, ← Nat.add_assoc]
      exact ih (grown_le h (Nat.le_add_right n count))

theorem sum_le_roomFor (counts : List Nat) : counts.sum ≤ roomFor counts := by
  have hsum := sum_le_roomAfter counts (Nat.le_refl 0)
  rwa [Nat.zero_add] at hsum

theorem roomFor_le (counts : List Nat) : roomFor counts ≤ max 4 (2 * counts.sum) := by
  have hroom := roomAfter_le counts (n := 0) (Nat.zero_le _)
  rwa [Nat.zero_add] at hroom

/-! ### Reading spans -/

/-- How many numbers each span has. -/
def counts (spans : List Span) : List Nat := spans.map Span.count

/-- The numbers of all spans, one after the other. -/
def gathered (spans : List Span) : List UInt64 := spans.flatMap Span.cpus

@[simp] theorem counts_cons (span : Span) (spans : List Span) :
    counts (span :: spans) = span.count :: counts spans := rfl

theorem counts_append (spans spans' : List Span) :
    counts (spans ++ spans') = counts spans ++ counts spans' :=
  List.map_append

@[simp] theorem gathered_cons (span : Span) (spans : List Span) :
    gathered (span :: spans) = span.cpus ++ gathered spans := rfl

theorem gathered_append (spans spans' : List Span) :
    gathered (spans ++ spans') = gathered spans ++ gathered spans' :=
  List.flatMap_append

theorem sum_counts (spans : List Span) : (counts spans).sum = (gathered spans).length := by
  induction spans with
  | nil => rfl
  | cons span spans ih =>
      rw [counts_cons, gathered_cons, List.sum_cons, List.length_append, Span.length_cpus, ih]

variable {room : Nat}

theorem extend_eq_ok {filled : Filled} {span : Span}
    (h : grown filled.capacity (filled.cpus.length + span.count) ≤ min room maxEntries) :
    filled.extend room span = .ok ⟨filled.cpus ++ span.cpus,
      grown filled.capacity (filled.cpus.length + span.count)⟩ := by
  rw [Filled.extend, if_neg (Nat.not_lt.mpr (h.trans (Nat.min_le_right _ _))),
    if_neg (Nat.not_lt.mpr (h.trans (Nat.min_le_left _ _)))]

theorem extend_eq_error {filled : Filled} {span : Span}
    (h : min room maxEntries < grown filled.capacity (filled.cpus.length + span.count)) :
    filled.extend room span =
      .error (if maxEntries < grown filled.capacity (filled.cpus.length + span.count) then
        .panicked .capacity else .outOfMemory) := by
  rw [Filled.extend]
  split
  · rfl
  · rename_i hmax
    rw [if_pos (by omega)]

/-- Spans are read as long as the vector can have the room. -/
theorem foldlM_extend {spans : List Span} : ∀ {filled : Filled},
    roomAfter filled.capacity filled.cpus.length (counts spans) ≤ min room maxEntries →
      spans.foldlM (Filled.extend room) filled = .ok ⟨filled.cpus ++ gathered spans,
        roomAfter filled.capacity filled.cpus.length (counts spans)⟩ := by
  induction spans with
  | nil =>
      intro filled _
      simp only [gathered, List.flatMap_nil, List.append_nil]
      rfl
  | cons span spans ih =>
      intro filled h
      rw [counts_cons, roomAfter] at h ⊢
      have hspan := (capacity_le_roomAfter _ _ _).trans h
      rw [List.foldlM_cons, extend_eq_ok hspan]
      have hlength : (filled.cpus ++ span.cpus).length = filled.cpus.length + span.count := by
        rw [List.length_append, Span.length_cpus]
      rw [← hlength] at h ⊢
      rw [gathered_cons, ← List.append_assoc]
      exact ih h

/-- The span with which the vector gets too large ends the reading. -/
theorem read_eq_error {before after : List Span} {span : Span}
    (hspans : spans text = before ++ span :: after)
    (hbefore : roomFor (counts before) ≤ min room maxEntries)
    (hbeyond : min room maxEntries < roomFor (counts before ++ [span.count])) :
    read room text =
      .error (if maxEntries < roomFor (counts before ++ [span.count]) then .panicked .capacity
        else .outOfMemory) := by
  have hread : before.foldlM (Filled.extend room) ⟨[], 0⟩ =
      .ok ⟨gathered before, roomFor (counts before)⟩ := foldlM_extend hbefore
  have hroom : roomFor (counts before ++ [span.count]) =
      grown (roomFor (counts before)) ((gathered before).length + span.count) := by
    rw [roomFor, roomAfter_append, sum_counts, Nat.zero_add]
    rfl
  rw [hroom] at hbeyond ⊢
  rw [read, hspans, List.foldlM_append, hread]
  change Except.map _ (List.foldlM (Filled.extend room) _ (span :: after)) = _
  rw [List.foldlM_cons, extend_eq_error hbeyond]
  rfl

/-- If the vector gets too large, there is a span with which it does. -/
theorem exists_beyond {spans : List Span} (h : min room maxEntries < roomFor (counts spans)) :
    ∃ before span after, spans = before ++ span :: after ∧
      roomFor (counts before) ≤ min room maxEntries ∧
      min room maxEntries < roomFor (counts before ++ [span.count]) := by
  induction spans using List.reverseRecOn with
  | nil => exact absurd h (Nat.not_lt_zero _)
  | append_singleton spans span ih =>
      rcases Nat.lt_or_ge (min room maxEntries) (roomFor (counts spans)) with hlt | hle
      · obtain ⟨before, first, after, rfl, hbefore, hbeyond⟩ := ih hlt
        exact ⟨before, first, after ++ [span], by simp, hbefore, hbeyond⟩
      · rw [counts_append] at h
        exact ⟨spans, span, [], rfl, hle, h⟩

/-- A list is read if the vector can have the room, and only then. -/
theorem read_eq_ok_iff {cpus : List UInt64} :
    read room text = .ok cpus ↔
      cpus = gathered (spans text) ∧ roomFor (counts (spans text)) ≤ min room maxEntries := by
  rcases Nat.lt_or_ge (min room maxEntries) (roomFor (counts (spans text))) with hlt | hle
  · obtain ⟨before, span, after, hspans, hbefore, hbeyond⟩ := exists_beyond hlt
    rw [read_eq_error hspans hbefore hbeyond]
    exact iff_of_false nofun fun h => Nat.not_le.mpr hlt h.2
  · have hread : (spans text).foldlM (Filled.extend room) ⟨[], 0⟩ =
        .ok ⟨gathered (spans text), roomFor (counts (spans text))⟩ := foldlM_extend hle
    rw [read, hread]
    exact ⟨fun h => ⟨(Except.ok.inj h).symm, hle⟩, fun h => congrArg Except.ok h.1.symm⟩

/-! ### Reading a list -/

/-- Parts give what they name. -/
theorem map_toNat_gathered {parts : List (List Char)} {cpus : List (List Nat)}
    (h : List.Forall₂ Names parts cpus) :
    (gathered (parts.map fun part => readItem (trim part))).map UInt64.toNat = cpus.flatten := by
  induction h with
  | nil => rfl
  | cons hpart _ ih =>
      rw [List.map_cons, gathered_cons, List.map_append, hpart.readItem, ih, List.flatten_cons]

theorem counts_parts {parts : List (List Char)} {cpus : List (List Nat)}
    (h : List.Forall₂ Names parts cpus) :
    counts (parts.map fun part => readItem (trim part)) = cpus.map List.length := by
  induction h with
  | nil => rfl
  | cons hpart _ ih =>
      rw [List.map_cons, counts_cons, hpart.count_eq, ih, List.map_cons]

/-- Commas between parts keep them apart; no part is like one blank part. -/
theorem spans_intercalate {parts : List (List Char)} {cpus : List (List Nat)}
    (h : List.Forall₂ Names parts cpus) (hne : parts ≠ []) :
    spans ([','].intercalate parts) = parts.map fun part => readItem (trim part) := by
  have hcomma : ∀ part ∈ parts, ',' ∉ part := by
    clear hne
    induction h with
    | nil => nofun
    | cons hpart _ ih => exact List.forall_mem_cons.mpr ⟨hpart.comma_not_mem, ih⟩
  rw [spans, cutAll_intercalate hne hcomma]

/-- Every text is parts with commas between, each of which names what it names. -/
theorem exists_parts (cs : List Char) :
    ∃ parts cpus, [','].intercalate parts = cs ∧ List.Forall₂ Names parts cpus := by
  have hpart : ∀ part ∈ cutAll ',' cs, ∃ cpus, Names part cpus := fun part hpart =>
    exists_names (not_mem_of_mem_cutAll hpart)
  have hnames : ∀ {parts : List (List Char)}, (∀ part ∈ parts, ∃ cpus, Names part cpus) →
      ∃ cpus, List.Forall₂ Names parts cpus := by
    intro parts
    induction parts with
    | nil => exact fun _ => ⟨[], .nil⟩
    | cons part parts ih =>
        intro h
        obtain ⟨cpus, hcpus⟩ := h part List.mem_cons_self
        obtain ⟨rest, hrest⟩ := ih fun part hpart => h part (List.mem_cons_of_mem _ hpart)
        exact ⟨cpus :: rest, .cons hcpus hrest⟩
  obtain ⟨cpus, hcpus⟩ := hnames hpart
  exact ⟨_, cpus, intercalate_cutAll ',' cs, hcpus⟩

/-- **Reading part by part.**  Every text is parts with commas between, each of which is an item that
names its numbers, or names nothing.  What is read is what the parts name, one after the other, and
it is read just when the vector for it needs no more room than a vector can have and memory gives;
else the first part with which it needs more ends the program: with a panic if no vector can have so
much.  The vector has room for all that is named, and at most for twice as many or for four.  So a
list with a comma in it names what stands before the comma and then what stands behind it.  A part is
no item if it is blank, has a second dash, blanks beside its dash, a foreign character or a number
that is too large. -/
theorem reads_parts (room : Nat) :
    (∀ (a b : String) (room₁ room₂ : Nat) (x y : List UInt64), read room₁ a.toList = .ok x →
      read room₂ b.toList = .ok y →
        (∀ cpus, read room (a ++ "," ++ b).toList = .ok cpus → cpus = x ++ y) ∧
        (max 4 (2 * (x ++ y).length) ≤ min room maxEntries →
          read room (a ++ "," ++ b).toList = .ok (x ++ y))) ∧
    (∀ parts cpus, List.Forall₂ Names parts cpus → ∀ named,
      read room ([','].intercalate parts) = .ok named ↔
        named.map UInt64.toNat = cpus.flatten ∧
          roomFor (cpus.map List.length) ≤ min room maxEntries) ∧
    (∀ parts parts' part cpus cpus' named, List.Forall₂ Names parts cpus →
      List.Forall₂ Names parts' cpus' → Names part named →
      roomFor (cpus.map List.length) ≤ min room maxEntries →
      min room maxEntries < roomFor ((cpus ++ [named]).map List.length) →
      read room ([','].intercalate (parts ++ part :: parts')) =
        .error (if maxEntries < roomFor ((cpus ++ [named]).map List.length) then
          .panicked .capacity else .outOfMemory)) ∧
    (∀ counts : List Nat, counts.sum ≤ roomFor counts ∧ roomFor counts ≤ max 4 (2 * counts.sum)) ∧
    (∀ text : String, ∃ parts cpus, [','].intercalate parts = text.toList ∧
      List.Forall₂ Names parts cpus) ∧
    (∀ part item, Malformed part → ¬ CpuItem.Fills item part) := by
  refine ⟨fun a b room₁ room₂ x y hx hy => ?_, fun parts cpus h named => ?_,
    fun parts parts' part cpus cpus' named h h' hpart hle hlt => ?_,
    fun counts => ⟨sum_le_roomFor counts, roomFor_le counts⟩,
    fun text => exists_parts text.toList, fun part item => Malformed.not_fills⟩
  · have hcomma : (a ++ "," ++ b).toList = a.toList ++ ',' :: b.toList := by simp
    obtain ⟨rfl, -⟩ := read_eq_ok_iff.mp hx
    obtain ⟨rfl, -⟩ := read_eq_ok_iff.mp hy
    rw [hcomma, ← gathered_append, ← spans_append_comma]
    refine ⟨fun cpus hcpus => (read_eq_ok_iff.mp hcpus).1, fun hle => read_eq_ok_iff.mpr ⟨rfl, ?_⟩⟩
    rw [← sum_counts] at hle
    exact (roomFor_le _).trans hle
  · cases parts with
    | nil =>
        cases h
        refine read_eq_ok_iff.trans (and_congr ?_ Iff.rfl)
        exact List.map_eq_nil_iff.symm
    | cons first rest =>
        have hspans := spans_intercalate h (List.cons_ne_nil first rest)
        have hinj : Function.Injective (List.map UInt64.toNat) :=
          List.map_injective_iff.mpr fun _ _ => UInt64.toNat_inj.mp
        rw [read_eq_ok_iff, hspans, counts_parts h, ← map_toNat_gathered h, hinj.eq_iff]
  · have hall : List.Forall₂ Names (parts ++ part :: parts') (cpus ++ named :: cpus') :=
      List.rel_append h (.cons hpart h')
    have hspans := spans_intercalate hall (by simp)
    rw [List.map_append, List.map_cons] at hspans
    rw [List.map_append, List.map_singleton, ← counts_parts h, ← hpart.count_eq] at hlt ⊢
    rw [← counts_parts h] at hle
    exact read_eq_error hspans hle hlt

example : read 9 " 8 ,, 3-+1, 2-4,5 - 6,1-2-3,007,x,18446744073709551616".toList =
    .ok [8, 2, 3, 4, 7] := by
  rfl

/-- All numbers that there are: no vector holds them, and what is named beside them is lost with
them. -/
theorem not_forall_read_eq_ok :
    ¬ ∀ parts cpus, List.Forall₂ Names parts cpus → ∃ room named,
      read room ([','].intercalate parts) = .ok named ∧
        named.map UInt64.toNat = cpus.flatten := by
  intro h
  obtain ⟨parts, cpus, hparts, hnames⟩ := exists_parts "7,0-18446744073709551615".toList
  obtain ⟨room, named, hread, -⟩ := h parts cpus hnames
  rw [hparts] at hread
  have hle := (sum_le_roomFor _).trans (read_eq_ok_iff.mp hread).2
  have hsum : (counts (spans "7,0-18446744073709551615".toList)).sum = 1 + 2 ^ 64 := rfl
  rw [hsum, maxEntries] at hle
  omega

end CpuList

end BurstRing
