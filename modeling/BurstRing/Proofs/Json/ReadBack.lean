import BurstRing.Json.Reader
import BurstRing.Json.Writer
import Mathlib.Data.List.TakeWhile
import Mathlib.Tactic.Common

/-!
# What is written is read back

A plain JSON value is made of texts and whole numbers (`Json.IsPlain`).  Written on one line, it is
read back as it was (`Json.IsPlain.parse?_compact`).

A reader is shown to take exactly what was written of a value, whatever stands behind it, as long as
that does not go on with a number (`EndsNumber`).  Twice the length of what was written is fuel
enough, since a reader hands on all fuel but one and every value has at least one character.
-/

namespace BurstRing.Json

/-- A value made of texts and whole numbers alone. -/
inductive IsPlain : Json → Prop where
  | null : IsPlain .null
  | bool (b : Bool) : IsPlain (.bool b)
  | number (n : Nat) : IsPlain (ofNat n)
  | string (s : String) : IsPlain (ofString s)
  | array {items : List Json} (h : ∀ v ∈ items, IsPlain v) : IsPlain (.array items)
  | object {members : List (String × Json)} (h : ∀ m ∈ members, IsPlain m.2) :
    IsPlain (ofMembers members)

/-! ### Strings -/

/-- What is no half of a surrogate pair stands for itself. -/
theorem consUnit_of_lt {u : Nat} (h : u < 0xD800) (rest : List (CodePoint × Bool)) :
    consUnit u rest = (u.toUInt32, true) :: rest := by
  unfold consUnit
  split
  · exact if_neg fun hpair => absurd hpair.1 (by omega)
  · rfl

theorem readHex4_hex4 {n : Nat} (h : n < 0x20) (cs : List Char) :
    readHex4 ((hex4 n).toList ++ cs) = some (n, cs) := by
  have hdigits : ∀ n < 0x20,
      (hex4 n).toList = ['0', '0', Nat.digitChar (n / 16), Nat.digitChar (n % 16)] := by decide
  have hvalue : ∀ d < 16, Text.digitValue? 16 (Nat.digitChar d) = some d := by decide
  rw [hdigits n h]
  simp only [List.cons_append, List.nil_append, readHex4, hvalue (n / 16) (by omega),
    hvalue (n % 16) (by omega), show Text.digitValue? 16 '0' = some 0 from rfl, Option.bind_eq_bind,
    Option.bind_some, Option.some.injEq, Prod.mk.injEq, and_true]
  omega

/-- The reader takes what was written of one character, whether or not it is spelled by number. -/
theorem readMarked_writeCodePoint {fuel : Nat} {cs rest : List Char}
    {marked : List (CodePoint × Bool)} (c : Char) (h : readMarked fuel cs = some (marked, rest)) :
    ∃ byNumber, readMarked (fuel + 1) ((writeCodePoint c.val).toList ++ cs) =
      some ((c.val, byNumber) :: marked, rest) := by
  have hescaped (e : Char) (he : e ≠ 'u') (u : CodePoint) (hu : escaped? e = some u) :
      readMarked (fuel + 1) ('\\' :: e :: cs) = some ((u, false) :: marked, rest) := by
    rw [readMarked]
    · simp [hu, h]
    · exact he
  unfold writeCodePoint
  split_ifs with hquote hslash hback hform hline hreturn htab hcontrol
  · exact ⟨false, hquote ▸ hescaped '"' (by decide) _ rfl⟩
  · exact ⟨false, hslash ▸ hescaped '\\' (by decide) _ rfl⟩
  · exact ⟨false, hback ▸ hescaped 'b' (by decide) _ rfl⟩
  · exact ⟨false, hform ▸ hescaped 'f' (by decide) _ rfl⟩
  · exact ⟨false, hline ▸ hescaped 'n' (by decide) _ rfl⟩
  · exact ⟨false, hreturn ▸ hescaped 'r' (by decide) _ rfl⟩
  · exact ⟨false, htab ▸ hescaped 't' (by decide) _ rfl⟩
  · have hlt : c.val.toNat < 0x20 := UInt32.lt_iff_toNat_lt.mp hcontrol
    refine ⟨true, ?_⟩
    rw [String.toList_append, show "\\u".toList = ['\\', 'u'] from rfl, List.append_assoc]
    simp only [List.cons_append, List.nil_append, readMarked, readHex4_hex4 hlt, h,
      Option.bind_eq_bind, Option.bind_some, consUnit_of_lt (by omega : c.val.toNat < 0xD800)]
    exact congrArg (fun u => some ((u, true) :: marked, rest)) UInt32.ofNat_toNat
  · refine ⟨false, ?_⟩
    have hne : c ≠ '"' := fun hc => hquote (hc ▸ rfl)
    have hne' : c ≠ '\\' := fun hc => hslash (hc ▸ rfl)
    rw [char?_val]
    simp only [Char.toString_eq_singleton, String.toList_singleton, List.cons_append,
      List.nil_append]
    rw [readMarked]
    · simp [hcontrol, hne', h]
    · exact hne
    · exact fun _ hc => absurd hc hne'
    · exact fun _ _ hc => absurd hc hne'

/-- What is written of characters between the quotes. -/
def spelled (cs : List Char) : List Char := cs.flatMap fun c => (writeCodePoint c.val).toList

theorem spelled_cons (c : Char) (cs : List Char) :
    spelled (c :: cs) = (writeCodePoint c.val).toList ++ spelled cs := List.flatMap_cons

theorem toList_writeString (s : String) :
    (writeString (codePoints s)).toList = '"' :: (spelled s.toList ++ ['"']) := by
  simp [writeString, spelled, codePoints, String.toList_append, String.toList_join,
    List.flatMap_map]

theorem length_le_length_spelled (cs : List Char) : cs.length ≤ (spelled cs).length := by
  have hpos (c : Char) : 0 < (writeCodePoint c.val).toList.length := by
    unfold writeCodePoint
    split_ifs <;> simp [char?_val, String.toList_append]
  induction cs with
  | nil => exact Nat.le_refl 0
  | cons c cs ih =>
      rw [spelled_cons, List.length_append, List.length_cons]
      have := hpos c
      omega

theorem readMarked_spelled (rest : List Char) {cs : List Char} : ∀ {fuel : Nat}, cs.length < fuel →
    ∃ marked, readMarked fuel (spelled cs ++ '"' :: rest) = some (marked, rest) ∧
      marked.map (·.1) = cs.map (·.val) := by
  induction cs with
  | nil =>
      rintro (_ | fuel) hfuel
      · cases hfuel
      · exact ⟨[], rfl, rfl⟩
  | cons c cs ih =>
      rintro (_ | fuel) hfuel
      · cases hfuel
      · obtain ⟨marked, hread, hmarked⟩ := ih (Nat.lt_of_succ_lt_succ hfuel)
        obtain ⟨byNumber, hchar⟩ := readMarked_writeCodePoint c hread
        refine ⟨(c.val, byNumber) :: marked, ?_, by rw [List.map_cons, hmarked, List.map_cons]⟩
        rw [spelled_cons, List.append_assoc, hchar]

/-- The reader takes what was written of a text up to the quote behind it. -/
theorem readString_spelled (s : String) (rest : List Char) :
    readString (spelled s.toList ++ '"' :: rest) = some (codePoints s, rest) := by
  have hfuel : s.toList.length < (spelled s.toList ++ '"' :: rest).length + 1 := by
    have := length_le_length_spelled s.toList
    rw [List.length_append]
    omega
  obtain ⟨marked, hread, hmarked⟩ := readMarked_spelled rest hfuel
  rw [readString, hread, Option.map_some]
  exact congrArg (fun u => some (u, rest)) hmarked

/-! ### Numbers -/

/-- What stands behind a number does not go on with it. -/
def EndsNumber (rest : List Char) : Prop :=
  ∀ c ∈ rest.head?, c.isDigit = false ∧ c ≠ '.' ∧ c ≠ 'e' ∧ c ≠ 'E'

theorem endsNumber_nil : EndsNumber [] := nofun

theorem endsNumber_cons (c : Char) (rest : List Char)
    (h : c.isDigit = false ∧ c ≠ '.' ∧ c ≠ 'e' ∧ c ≠ 'E') : EndsNumber (c :: rest) := by
  rintro _ ⟨⟩
  exact h

theorem digits_append {ds rest : List Char} (hds : ∀ d ∈ ds, d.isDigit = true)
    (hrest : EndsNumber rest) : digits (ds ++ rest) = (ds, rest) := by
  have hend : rest.takeWhile Char.isDigit = [] ∧ rest.dropWhile Char.isDigit = rest := by
    cases rest with
    | nil => exact ⟨rfl, rfl⟩
    | cons c rest =>
        have hc : c.isDigit = false := (hrest c rfl).1
        simp [hc]
  rw [digits, List.takeWhile_append_of_pos hds, List.dropWhile_append_of_pos hds, hend.1, hend.2,
    List.append_nil]

/-- Digits of a positive number have no zero in front. -/
theorem head?_toDigits {n : Nat} (h : 0 < n) : (Nat.toDigits 10 n).head? ≠ some '0' := by
  induction n using Nat.strongRecOn with
  | ind n ih =>
      by_cases hn : n < 10
      · have hdigit : ∀ d < 10, 0 < d → Nat.digitChar d ≠ '0' := by decide
        rw [Nat.toDigits_of_lt_base hn]
        exact fun heq => hdigit n hn h (Option.some.inj heq)
      · obtain ⟨d, ds, hds⟩ :=
          List.exists_cons_of_ne_nil (Nat.toDigits_ne_nil (n := n / 10) (b := 10))
        have hquotient := ih (n / 10) (by omega) (by omega)
        rw [hds] at hquotient
        rwa [Nat.toDigits_of_base_le (by decide) (Nat.le_of_not_lt hn), hds]

theorem readWhole_toDigits (n : Nat) {rest : List Char} (hrest : EndsNumber rest) :
    readWhole (Nat.toDigits 10 n ++ rest) = some (Nat.toDigits 10 n, rest) := by
  have hdigits : ∀ d ∈ Nat.toDigits 10 n, d.isDigit = true :=
    fun d hd => Nat.isDigit_of_mem_toDigits (by decide) (by decide) hd
  rw [readWhole, digits_append hdigits hrest]
  split
  · rename_i heq
    exact absurd (congrArg Prod.fst heq) Nat.toDigits_ne_nil
  · rename_i d ds _ heq
    have hzero : Nat.toDigits 10 n = '0' :: d :: ds := congrArg Prod.fst heq
    rcases Nat.eq_zero_or_pos n with rfl | hpos
    · cases hzero
    · exact absurd (congrArg List.head? hzero) (head?_toDigits hpos)
  · rename_i heq
    rw [heq]

theorem readFraction_of_ends {rest : List Char} (h : EndsNumber rest) :
    readFraction rest = some ([], rest) := by
  unfold readFraction
  split
  · exact absurd rfl (h _ rfl).2.1
  · rfl

theorem readExponent_of_ends {rest : List Char} (h : EndsNumber rest) :
    readExponent rest = some ([], rest) := by
  unfold readExponent
  split
  · exact absurd rfl (h _ rfl).2.2.1
  · exact absurd rfl (h _ rfl).2.2.2
  · rfl

theorem readNumber_toDigits (n : Nat) {rest : List Char} (hrest : EndsNumber rest) :
    readNumber (Nat.toDigits 10 n ++ rest) = some (ofNat n, rest) := by
  have hsign : ∀ cs, Nat.toDigits 10 n ++ rest ≠ '-' :: cs := by
    intro cs heq
    obtain ⟨d, ds, hds⟩ := List.exists_cons_of_ne_nil (Nat.toDigits_ne_nil (n := n) (b := 10))
    have hd : d.isDigit = true :=
      Nat.isDigit_of_mem_toDigits (by decide) (by decide) (hds ▸ List.mem_cons_self)
    rw [hds, List.cons_append] at heq
    rw [(List.cons.inj heq).1] at hd
    exact absurd hd (by decide)
  unfold readNumber
  split
  rename_i sign cs heq
  split at heq
  · rename_i hcs
    exact absurd hcs (hsign _)
  · cases heq
    simp only [readWhole_toDigits n hrest, readFraction_of_ends hrest, readExponent_of_ends hrest,
      Option.bind_eq_bind, Option.bind_some, Nat.ofDigitChars_toDigits (b := 10) (by decide)
        (by decide), ofNat]

/-! ### Values -/

theorem skipSpace_cons {c : Char} (h : isSpace c = false) (cs : List Char) :
    skipSpace (c :: cs) = c :: cs := by
  rw [skipSpace, List.dropWhile_cons_of_neg (by simp [h])]

/-- The reader takes what was written of the value, and that begins with no blank and closes no
bracket. -/
structure Reads (j : Json) : Prop where
  begins : ∃ c cs, j.compact.toList = c :: cs ∧ isSpace c = false ∧ c ≠ ']' ∧ c ≠ '\x7d'
  takes : ∀ fuel rest, 2 * j.compact.toList.length ≤ fuel → EndsNumber rest →
    readValue fuel (j.compact.toList ++ rest) = some (j, rest)

/-- A value that begins with `c` is read with fuel for one more than what the reader hands on. -/
theorem Reads.of_cons {j : Json} {c : Char} (cs : List Char) (hj : j.compact.toList = c :: cs)
    (hc : isSpace c = false ∧ c ≠ ']' ∧ c ≠ '\x7d')
    (h : ∀ {fuel rest}, 2 * cs.length < fuel → EndsNumber rest →
      readValue (fuel + 1) (c :: (cs ++ rest)) = some (j, rest)) : Reads j where
  begins := ⟨c, cs, hj, hc⟩
  takes := by
    intro fuel rest hfuel hrest
    rw [hj] at hfuel ⊢
    rw [List.length_cons] at hfuel
    obtain ⟨fuel, rfl⟩ := Nat.exists_eq_add_of_lt (show 0 < fuel by omega)
    rw [Nat.zero_add] at hfuel ⊢
    exact h (by omega) hrest

theorem reads_null : Reads .null :=
  .of_cons ['u', 'l', 'l'] rfl (by decide) fun _ _ => rfl

theorem reads_bool : ∀ b, Reads (.bool b)
  | true => .of_cons ['r', 'u', 'e'] rfl (by decide) fun _ _ => rfl
  | false => .of_cons ['a', 'l', 's', 'e'] rfl (by decide) fun _ _ => rfl

theorem reads_string (s : String) : Reads (ofString s) := by
  refine .of_cons _ (toList_writeString s) (by decide) ?_
  intro fuel rest _ _
  rw [readValue, skipSpace_cons (by decide), List.append_assoc]
  exact congrArg (Option.map _) (readString_spelled s rest)

theorem reads_number (n : Nat) : Reads (ofNat n) := by
  have htext : (ofNat n).compact.toList = Nat.toDigits 10 n := Nat.toList_repr
  obtain ⟨d, ds, hds⟩ := List.exists_cons_of_ne_nil (Nat.toDigits_ne_nil (n := n) (b := 10))
  have hd : d.isDigit = true :=
    Nat.isDigit_of_mem_toDigits (by decide) (by decide) (hds ▸ List.mem_cons_self)
  have hother : ∀ c : Char, c.isDigit = false → d ≠ c := by
    rintro c hc rfl
    rw [hc] at hd
    cases hd
  have hspace : isSpace d = false := by
    simp [isSpace, hother]
  refine .of_cons _ (htext.trans hds) ⟨hspace, hother _ rfl, hother _ rfl⟩ ?_
  intro fuel rest _ hrest
  have hnumber := readNumber_toDigits n hrest
  rw [hds, List.cons_append] at hnumber
  rw [readValue, skipSpace_cons hspace]
  split
  case h_7 => exact hnumber
  all_goals
    rename_i heq
    cases heq
    exact absurd rfl (hother _ rfl)

/-- Texts with a comma between any two neighbours. -/
def joined (texts : List String) : List Char := (",".intercalate texts).toList

theorem joined_singleton (text : String) : joined [text] = text.toList := by
  simp [joined]

theorem joined_cons_cons (text text' : String) (texts : List String) :
    joined (text :: text' :: texts) = text.toList ++ ',' :: joined (text' :: texts) := by
  simp [joined, String.toList_intercalate]

theorem toList_compact_array (items : List Json) :
    (compact (.array items)).toList = '[' :: (joined (compactItems items) ++ [']']) := by
  simp [compact, joined, String.toList_append]

theorem toList_compact_object (members : List (List CodePoint × Json)) :
    (compact (.object members)).toList =
      '\x7b' :: (joined (compactMembers members) ++ ['\x7d']) := by
  simp [compact, joined, String.toList_append]

theorem joined_compactItems_begins {v : Json} (items : List Json) (hv : Reads v) :
    ∃ c cs, joined (compactItems (v :: items)) = c :: cs ∧ isSpace c = false ∧ c ≠ ']' := by
  obtain ⟨c, cs, htext, hspace, hbracket, -⟩ := hv.begins
  cases items with
  | nil =>
      rw [compactItems, compactItems, joined_singleton]
      exact ⟨c, cs, htext, hspace, hbracket⟩
  | cons w items =>
      rw [compactItems, compactItems, joined_cons_cons, htext]
      exact ⟨c, _, rfl, hspace, hbracket⟩

theorem readItems_joined {v : Json} {items : List Json} (hitems : ∀ w ∈ v :: items, Reads w) :
    ∀ (fuel : Nat) (rest : List Char), 2 * (joined (compactItems (v :: items))).length < fuel →
      readItems fuel (joined (compactItems (v :: items)) ++ ']' :: rest) =
        some (v :: items, rest) := by
  induction items generalizing v with
  | nil =>
      rintro (_ | fuel) rest hfuel
      · cases hfuel
      · rw [compactItems, compactItems, joined_singleton] at hfuel ⊢
        have hv := (hitems v List.mem_cons_self).takes fuel _ (Nat.lt_succ_iff.mp hfuel)
          (endsNumber_cons ']' rest (by decide))
        rw [readItems, hv]
        rfl
  | cons w items ih =>
      rintro (_ | fuel) rest hfuel
      · cases hfuel
      · rw [compactItems, compactItems, joined_cons_cons, ← compactItems.eq_2] at hfuel ⊢
        rw [List.length_append, List.length_cons] at hfuel
        have hv := (hitems v List.mem_cons_self).takes fuel _ (by omega)
          (endsNumber_cons ',' (joined (compactItems (w :: items)) ++ ']' :: rest) (by decide))
        have hrest := ih (fun u hu => hitems u (List.mem_cons_of_mem _ hu)) fuel rest
          (by omega)
        rw [List.append_assoc, List.cons_append, readItems, hv]
        simp only [Option.bind_eq_bind, Option.bind_some]
        rw [skipSpace_cons (by decide)]
        simp only [hrest, Option.bind_some]

theorem reads_array {items : List Json} (hitems : ∀ v ∈ items, Reads v) :
    Reads (.array items) := by
  refine .of_cons _ (toList_compact_array items) (by decide) ?_
  intro fuel rest hfuel _
  rw [List.length_append, List.length_singleton] at hfuel
  rw [readValue, skipSpace_cons (by decide), List.append_assoc, List.singleton_append]
  cases items with
  | nil => rfl
  | cons v items =>
      have hread := readItems_joined hitems fuel rest (by omega)
      obtain ⟨c, cs, htext, hspace, hbracket⟩ :=
        joined_compactItems_begins items (hitems v List.mem_cons_self)
      rw [htext, List.cons_append] at hread ⊢
      simp only [skipSpace_cons hspace]
      split
      · rename_i heq
        cases heq
        exact absurd rfl hbracket
      · rw [hread]
        rfl

/-- What is written of one member. -/
def memberText (m : String × Json) : String := writeString (codePoints m.1) ++ ":" ++ m.2.compact

theorem toList_memberText (m : String × Json) :
    (memberText m).toList = '"' :: (spelled m.1.toList ++ '"' :: ':' :: m.2.compact.toList) := by
  simp [memberText, toList_writeString, String.toList_append]

theorem compactMembers_eq_map (members : List (String × Json)) :
    compactMembers (members.map fun m => (codePoints m.1, m.2)) = members.map memberText := by
  induction members with
  | nil => rfl
  | cons m members ih => rw [List.map_cons, compactMembers, ih, List.map_cons, memberText]

theorem readMembers_last {fuel : Nat} {m : String × Json} (hm : Reads m.2) (rest : List Char)
    (hfuel : 2 * (memberText m).toList.length < fuel + 1) :
    readMembers (fuel + 1) ((memberText m).toList ++ '\x7d' :: rest) =
      some ([(codePoints m.1, m.2)], rest) := by
  rw [toList_memberText] at hfuel ⊢
  simp only [List.length_cons, List.length_append] at hfuel
  have hvalue := hm.takes fuel ('\x7d' :: rest) (by omega) (endsNumber_cons _ _ (by decide))
  simp only [List.cons_append, List.append_assoc, readMembers,
    skipSpace_cons (show isSpace '"' = false by decide),
    skipSpace_cons (show isSpace ':' = false by decide),
    skipSpace_cons (show isSpace '\x7d' = false by decide), readString_spelled, hvalue,
    Option.bind_eq_bind, Option.bind_some]

theorem readMembers_more {fuel : Nat} {m : String × Json} (hm : Reads m.2) {cs rest : List Char}
    {members : List (List CodePoint × Json)}
    (hfuel : 2 * (memberText m).toList.length < fuel + 1)
    (hmore : readMembers fuel cs = some (members, rest)) :
    readMembers (fuel + 1) ((memberText m).toList ++ ',' :: cs) =
      some ((codePoints m.1, m.2) :: members, rest) := by
  rw [toList_memberText] at hfuel ⊢
  simp only [List.length_cons, List.length_append] at hfuel
  have hvalue := hm.takes fuel (',' :: cs) (by omega) (endsNumber_cons _ _ (by decide))
  simp only [List.cons_append, List.append_assoc, readMembers,
    skipSpace_cons (show isSpace '"' = false by decide),
    skipSpace_cons (show isSpace ':' = false by decide),
    skipSpace_cons (show isSpace ',' = false by decide), readString_spelled, hvalue, hmore,
    Option.bind_eq_bind, Option.bind_some]

theorem readMembers_joined {m : String × Json} {members : List (String × Json)}
    (hmembers : ∀ m' ∈ m :: members, Reads m'.2) : ∀ (fuel : Nat) (rest : List Char),
    2 * (joined ((m :: members).map memberText)).length < fuel →
      readMembers fuel (joined ((m :: members).map memberText) ++ '\x7d' :: rest) =
        some ((m :: members).map fun m => (codePoints m.1, m.2), rest) := by
  induction members generalizing m with
  | nil =>
      rintro (_ | fuel) rest hfuel
      · cases hfuel
      · rw [List.map_singleton, joined_singleton] at hfuel ⊢
        exact readMembers_last (hmembers m List.mem_cons_self) rest hfuel
  | cons m' members ih =>
      rintro (_ | fuel) rest hfuel
      · cases hfuel
      · rw [List.map_cons, List.map_cons, joined_cons_cons, ← List.map_cons] at hfuel ⊢
        rw [List.length_append, List.length_cons] at hfuel
        have hrest := ih (fun u hu => hmembers u (List.mem_cons_of_mem _ hu)) fuel rest
          (by omega)
        rw [List.append_assoc, List.cons_append]
        exact readMembers_more (hmembers m List.mem_cons_self) (by omega) hrest

theorem reads_object {members : List (String × Json)} (hmembers : ∀ m ∈ members, Reads m.2) :
    Reads (ofMembers members) := by
  refine .of_cons _ (toList_compact_object _) (by decide) ?_
  intro fuel rest hfuel _
  rw [List.length_append, List.length_singleton] at hfuel
  rw [readValue, skipSpace_cons (by decide), List.append_assoc, List.singleton_append]
  rw [compactMembers_eq_map] at hfuel ⊢
  cases members with
  | nil => rfl
  | cons m members =>
      have hread := readMembers_joined hmembers fuel rest (by omega)
      obtain ⟨cs, hcs⟩ : ∃ cs, joined ((m :: members).map memberText) = '"' :: cs := by
        cases members with
        | nil => exact ⟨_, by rw [List.map_singleton, joined_singleton, toList_memberText]⟩
        | cons m' members =>
            exact ⟨_, by rw [List.map_cons, List.map_cons, joined_cons_cons, toList_memberText,
              List.cons_append]⟩
      rw [hcs, List.cons_append] at hread ⊢
      simp only [skipSpace_cons (show isSpace '"' = false by decide)]
      exact congrArg (Option.map _) hread

/-! ### Whole texts -/

theorem IsPlain.reads {j : Json} (h : j.IsPlain) : Reads j := by
  induction h with
  | null => exact reads_null
  | bool b => exact reads_bool b
  | number n => exact reads_number n
  | string s => exact reads_string s
  | array _ ih => exact reads_array ih
  | object _ ih => exact reads_object ih

/-- A plain value is read back from what is written of it. -/
theorem IsPlain.parse?_compact {j : Json} (h : j.IsPlain) : parse? j.compact = some j := by
  have hread := h.reads.takes _ _ (Nat.le_succ (2 * j.compact.toList.length)) endsNumber_nil
  rw [List.append_nil] at hread
  rw [parse?, hread]
  rfl

end BurstRing.Json
