import BurstRing.Json.Codec
import BurstRing.Proofs.Config.Rules
import BurstRing.Proofs.Json.ReadBack
import Mathlib.Data.List.Forall2

/-!
# Values that are written as JSON

Every value that has a JSON form is read back from what is written of it, and what is read from any
text has been through the checks of its type.

For each type a relation says which JSON values spell a value (`RingName.Spelling` and the like): a
name is its text and nothing else, a word may be the one member of an object, a ring's settings are
an array of all of them or an object that has each of them once.  A form is faithful if it reads
just these, and writes one of them (`FaithfulForm`).  The main statement is
`jsonForms_roundTrip`.
-/

namespace BurstRing

open Json

/-! ### What stands for a value -/

/-- The word by itself, or as the one member of an object that holds nothing. -/
inductive Json.IsWord (w : String) : Json → Prop where
  | alone : IsWord w (ofString w)
  | member : IsWord w (ofMembers [(w, .null)])

/-- The JSON value is that name. -/
def RingName.Spelling (j : Json) (n : RingName) : Prop := j = Json.ofString n.text

def SyncMode.Spelling (j : Json) (m : SyncMode) : Prop := IsWord m.text j

inductive Locality.Spelling : Json → Locality → Prop where
  | any {j : Json} (h : IsWord "any" j) : Spelling j .any
  | node (n : UInt64) : Spelling (ofMembers [("node", ofNat n.toNat)]) (.node n)

def FlushInterval.Spelling (j : Json) (f : FlushInterval) : Prop := j = ofNat f.value.toNat

def SourceId.Spelling (j : Json) (s : SourceId) : Prop := j = ofNat s.value.toNat

def ChannelId.Spelling (j : Json) (c : ChannelId) : Prop := j = ofNat c.value.toNat

namespace RingConfig

/-- Each item spells a setting, in order. -/
inductive Items (ring : RingConfig) : List Json → Prop where
  | intro {producer consumer : Json} (hproducer : SyncMode.Spelling producer ring.producer)
    (hconsumer : SyncMode.Spelling consumer ring.consumer) :
    Items ring [Json.ofString ring.name.text, ofNat ring.capacity.toNat,
      ofNat ring.elementSize.toNat, producer, consumer]

/-- All settings in an array, or each as the one member of its name. -/
inductive Spelling : Json → RingConfig → Prop where
  | array {items : List Json} {ring : RingConfig} (h : Items ring items) :
    Spelling (.array items) ring
  | object {members : List (String × Json)} {items : List Json} {ring : RingConfig}
    (h : Items ring items) (honly : List.Forall₂ (fun name item =>
      members.filter (·.1 == name) = [(name, item)]) fieldNames items) :
    Spelling (ofMembers members) ring

end RingConfig

/-! ### Reading parts -/

/-- A reader goes through a list if it reads each element. -/
theorem mapM_eq_some_iff {α β : Type} {f : α → Option β} {as : List α} :
    ∀ {bs : List β}, as.mapM f = some bs ↔ List.Forall₂ (fun a b => f a = some b) as bs := by
  induction as with
  | nil =>
      intro bs
      rw [List.mapM_nil, List.forall₂_nil_left_iff]
      exact ⟨fun h => (Option.some.inj h).symm, fun h => h ▸ rfl⟩
  | cons a as ih =>
      intro bs
      rw [List.mapM_cons, List.forall₂_cons_left_iff, Option.bind_eq_bind, Option.bind_eq_some_iff]
      constructor
      · rintro ⟨b, hb, h⟩
        obtain ⟨bs, hbs, ⟨⟩⟩ := Option.bind_eq_some_iff.mp h
        exact ⟨b, bs, hb, ih.mp hbs, rfl⟩
      · rintro ⟨b, bs, hb, hbs, rfl⟩
        exact ⟨b, hb, by rw [ih.mpr hbs]; rfl⟩

theorem toOption_eq_some_iff {ε α : Type} {x : Except ε α} {a : α} :
    x.toOption = some a ↔ x = .ok a := by
  cases x with
  | error e => exact iff_of_false nofun nofun
  | ok b => exact ⟨fun h => congrArg _ (Option.some.inj h), fun h => congrArg _ (Except.ok.inj h)⟩

namespace Json

theorem char?_eq_some_iff {u : CodePoint} {c : Char} : char? u = some c ↔ u = c.val := by
  constructor
  · intro h
    unfold char? at h
    split at h
    · exact congrArg Char.val (Option.some.inj h)
    · cases h
  · rintro rfl
    exact char?_val c

theorem text?_eq_some_iff {s : List CodePoint} {t : String} :
    text? s = some t ↔ s = codePoints t := by
  constructor
  · intro h
    obtain ⟨cs, hcs, rfl⟩ := Option.map_eq_some_iff.mp h
    rw [mapM_eq_some_iff] at hcs
    simp only [char?_eq_some_iff] at hcs
    rw [codePoints, String.toList_ofList, ← List.forall₂_eq_eq_eq, List.forall₂_map_right_iff]
    exact hcs
  · rintro rfl
    exact text?_codePoints t

theorem ofString_inj {s t : String} : ofString s = ofString t ↔ s = t := by
  constructor
  · intro h
    exact Option.some.inj ((text?_codePoints s).symm.trans (text?_eq_some_iff.mpr (string.inj h)))
  · exact congrArg ofString

theorem string?_eq_some_iff {j : Json} {t : String} : j.string? = some t ↔ j = ofString t := by
  cases j with
  | string s => simp [string?, text?_eq_some_iff, ofString]
  | _ => simp [string?, ofString]

theorem natBelow?_eq_some_iff {bound n : Nat} {j : Json} :
    j.natBelow? bound = some n ↔ j = ofNat n ∧ n < bound := by
  constructor
  · intro h
    unfold natBelow? at h
    split at h
    · obtain ⟨hlt, hn⟩ := Option.ite_none_right_eq_some.mp h
      cases hn
      exact ⟨rfl, hlt⟩
    · cases h
  · rintro ⟨rfl, hlt⟩
    exact if_pos hlt

/-- A number below a bound, as the word of that many values. -/
theorem map_natBelow?_eq_some_iff {W : Type} {bound : Nat} {ofNat' : Nat → W} {toNat : W → Nat}
    (hnat : ∀ n < bound, toNat (ofNat' n) = n) (hlt : ∀ w, toNat w < bound)
    (hword : ∀ w, ofNat' (toNat w) = w) {j : Json} {w : W} :
    (j.natBelow? bound).map ofNat' = some w ↔ j = ofNat (toNat w) := by
  rw [Option.map_eq_some_iff]
  constructor
  · rintro ⟨n, hn, rfl⟩
    obtain ⟨rfl, hbound⟩ := natBelow?_eq_some_iff.mp hn
    rw [hnat n hbound]
  · rintro rfl
    exact ⟨toNat w, natBelow?_eq_some_iff.mpr ⟨rfl, hlt w⟩, hword w⟩

theorem word16_eq_some_iff {j : Json} {w : UInt16} :
    (j.natBelow? UInt16.size).map Nat.toUInt16 = some w ↔ j = ofNat w.toNat :=
  map_natBelow?_eq_some_iff (fun _ h => UInt16.toNat_ofNat_of_lt' h) UInt16.toNat_lt
    fun _ => UInt16.ofNat_toNat

theorem word32_eq_some_iff {j : Json} {w : UInt32} :
    (j.natBelow? UInt32.size).map Nat.toUInt32 = some w ↔ j = ofNat w.toNat :=
  map_natBelow?_eq_some_iff (fun _ h => UInt32.toNat_ofNat_of_lt' h) UInt32.toNat_lt
    fun _ => UInt32.ofNat_toNat

theorem word64_eq_some_iff {j : Json} {w : UInt64} :
    (j.natBelow? UInt64.size).map Nat.toUInt64 = some w ↔ j = ofNat w.toNat :=
  map_natBelow?_eq_some_iff (fun _ h => UInt64.toNat_ofNat_of_lt' h) UInt64.toNat_lt
    fun _ => UInt64.ofNat_toNat

theorem word?_eq_some_iff {j : Json} {w : String} {v : Option Json} :
    j.word? = some (w, v) ↔
      j = ofString w ∧ v = none ∨ ∃ held, j = ofMembers [(w, held)] ∧ v = some held := by
  constructor
  · intro h
    unfold word? at h
    split at h
    · obtain ⟨t, ht, ⟨⟩⟩ := Option.map_eq_some_iff.mp h
      exact .inl ⟨congrArg string (text?_eq_some_iff.mp ht), rfl⟩
    · obtain ⟨t, ht, ⟨⟩⟩ := Option.map_eq_some_iff.mp h
      exact .inr ⟨_, congrArg (fun k => object [(k, _)]) (text?_eq_some_iff.mp ht), rfl⟩
    · cases h
  · rintro (⟨rfl, rfl⟩ | ⟨held, rfl, rfl⟩)
    · exact congrArg (Option.map _) (text?_codePoints w)
    · exact congrArg (Option.map _) (text?_codePoints w)

end Json

/-! ### Each form reads what spells a value -/

theorem RingName.decode?_eq_some_iff {j : Json} {n : RingName} :
    decode? j = some n ↔ Spelling j n := by
  rw [decode?, Option.bind_eq_some_iff, Spelling]
  constructor
  · rintro ⟨s, hs, hn⟩
    rw [text_of_ofString (toOption_eq_some_iff.mp hn)]
    exact string?_eq_some_iff.mp hs
  · rintro rfl
    exact ⟨n.text, string?_eq_some_iff.mpr rfl, toOption_eq_some_iff.mpr n.ofString_text⟩

theorem SyncMode.ofText?_eq_some_iff {w : String} {m : SyncMode} :
    ofText? w = some m ↔ w = m.text := by
  constructor
  · intro h
    unfold ofText? at h
    split at h <;> cases h <;> rfl
  · rintro rfl
    cases m <;> rfl

theorem Json.isWord_iff {w : String} {j : Json} :
    IsWord w j ↔ j.word? = some (w, none) ∨ j.word? = some (w, some .null) := by
  simp only [word?_eq_some_iff]
  constructor
  · rintro (_ | _)
    · exact .inl (.inl ⟨rfl, trivial⟩)
    · exact .inr (.inr ⟨.null, rfl, rfl⟩)
  · rintro ((⟨rfl, -⟩ | ⟨held, -, ⟨⟩⟩) | (⟨-, ⟨⟩⟩ | ⟨held, rfl, ⟨⟩⟩))
    · exact .alone
    · exact .member

theorem SyncMode.decode?_eq_some_iff {j : Json} {m : SyncMode} :
    decode? j = some m ↔ Spelling j m := by
  rw [Spelling, Json.isWord_iff]
  constructor
  · intro h
    unfold decode? at h
    split at h
    · rename_i hword
      exact .inl (ofText?_eq_some_iff.mp h ▸ hword)
    · rename_i hword
      exact .inr (ofText?_eq_some_iff.mp h ▸ hword)
    · cases h
  · rintro (h | h)
    · rw [decode?, h]
      exact ofText?_eq_some_iff.mpr rfl
    · rw [decode?, h]
      exact ofText?_eq_some_iff.mpr rfl

theorem Locality.decode?_eq_some_iff {j : Json} {l : Locality} :
    decode? j = some l ↔ Spelling j l := by
  constructor
  · intro h
    unfold decode? at h
    split at h
    · rename_i hword
      cases h
      exact .any (Json.isWord_iff.mpr (.inl hword))
    · rename_i hword
      cases h
      exact .any (Json.isWord_iff.mpr (.inr hword))
    · rename_i v hword
      obtain ⟨n, hn, rfl⟩ := Option.map_eq_some_iff.mp h
      obtain ⟨-, ⟨⟩⟩ | ⟨held, rfl, ⟨⟩⟩ := word?_eq_some_iff.mp hword
      rw [word64_eq_some_iff.mp (Option.map_eq_some_iff.mpr ⟨n, hn, rfl⟩)]
      exact .node n.toUInt64
    · cases h
  · rintro (h | n)
    · rcases Json.isWord_iff.mp h with h | h
      · simp only [decode?, h]
      · simp only [decode?, h]
    · have hword := word?_eq_some_iff.mpr
        (.inr ⟨ofNat n.toNat, Eq.refl (ofMembers [("node", ofNat n.toNat)]), rfl⟩)
      obtain ⟨m, hm, rfl⟩ :=
        Option.map_eq_some_iff.mp (word64_eq_some_iff.mpr (Eq.refl (ofNat n.toNat)))
      simp only [decode?, hword, hm, Option.map_some]

theorem FlushInterval.value_of_ofWord {w : UInt32} {f : FlushInterval} (h : ofWord w = .ok f) :
    f.value = w := by
  unfold ofWord at h
  split at h
  · exact Except.ok.inj h ▸ rfl
  · cases h

theorem FlushInterval.decode?_eq_some_iff {j : Json} {f : FlushInterval} :
    decode? j = some f ↔ Spelling j f := by
  rw [decode?, Option.bind_eq_some_iff, Spelling, ← word32_eq_some_iff, Option.map_eq_some_iff]
  refine exists_congr fun n => and_congr_right fun _ => ?_
  rw [toOption_eq_some_iff]
  constructor
  · exact fun h => (value_of_ofWord h).symm
  · rintro h
    rw [h, ofWord_value]

theorem SourceId.decode?_eq_some_iff {j : Json} {s : SourceId} :
    decode? j = some s ↔ Spelling j s := by
  rw [Spelling, ← word16_eq_some_iff, decode?, Option.map_eq_some_iff, Option.map_eq_some_iff]
  refine exists_congr fun n => and_congr_right fun _ => ?_
  exact ⟨congrArg value, congrArg mk⟩

theorem ChannelId.decode?_eq_some_iff {j : Json} {c : ChannelId} :
    decode? j = some c ↔ Spelling j c := by
  rw [Spelling, ← word16_eq_some_iff, decode?, Option.map_eq_some_iff, Option.map_eq_some_iff]
  refine exists_congr fun n => and_congr_right fun _ => ?_
  exact ⟨congrArg value, congrArg mk⟩

namespace RingConfig

theorem ofItems?_eq_some_iff {items : List Json} {ring : RingConfig} :
    ofItems? items = some ring ↔ Items ring items := by
  constructor
  · intro h
    unfold ofItems? at h
    split at h
    · simp only [Option.bind_eq_bind, Option.bind_eq_some_iff] at h
      obtain ⟨n, hn, c, hc, e, he, p, hp, k, hk, ⟨⟩⟩ := h
      obtain rfl := RingName.decode?_eq_some_iff.mp hn
      obtain rfl := word64_eq_some_iff.mp (Option.map_eq_some_iff.mpr ⟨c, hc, rfl⟩)
      obtain rfl := word64_eq_some_iff.mp (Option.map_eq_some_iff.mpr ⟨e, he, rfl⟩)
      exact .intro (SyncMode.decode?_eq_some_iff.mp hp) (SyncMode.decode?_eq_some_iff.mp hk)
    · cases h
  · rintro ⟨hp, hk⟩
    obtain ⟨c, hc, hcapacity⟩ :=
      Option.map_eq_some_iff.mp (word64_eq_some_iff.mpr (Eq.refl (ofNat ring.capacity.toNat)))
    obtain ⟨e, he, helement⟩ :=
      Option.map_eq_some_iff.mp (word64_eq_some_iff.mpr (Eq.refl (ofNat ring.elementSize.toNat)))
    simp only [ofItems?, RingName.decode?_eq_some_iff.mpr (Eq.refl (Json.ofString ring.name.text)),
      hc, he, SyncMode.decode?_eq_some_iff.mpr hp, SyncMode.decode?_eq_some_iff.mpr hk,
      hcapacity, helement, Option.bind_eq_bind, Option.bind_some]

theorem only?_eq_some_iff {members : List (String × Json)} {name : String} {v : Json} :
    only? members name = some v ↔ members.filter (·.1 == name) = [(name, v)] := by
  unfold only?
  split
  · rename_i k w heq
    have hk : k = name := by
      have hmem : (k, w) ∈ members.filter (·.1 == name) := heq ▸ List.mem_singleton_self _
      exact eq_of_beq (List.mem_filter.mp hmem).2
    rw [heq, hk]
    simp
  · rename_i hother
    exact iff_of_false nofun fun h => hother name v h

theorem mapM_members_iff {members : List (List CodePoint × Json)} {named : List (String × Json)} :
    (members.mapM fun (k, v) => (text? k).map (·, v)) = some named ↔
      Json.object members = ofMembers named := by
  rw [mapM_eq_some_iff, ofMembers, object.injEq, ← List.forall₂_eq_eq_eq,
    List.forall₂_map_right_iff]
  refine iff_of_eq (congrArg (fun R => List.Forall₂ R members named) ?_)
  funext m m'
  rw [Option.map_eq_some_iff]
  simp only [text?_eq_some_iff]
  refine propext ⟨?_, ?_⟩
  · rintro ⟨k, hk, rfl⟩
    exact Prod.ext hk rfl
  · rintro rfl
    exact ⟨m'.1, rfl, rfl⟩

theorem decode?_eq_some_iff {j : Json} {ring : RingConfig} :
    decode? j = some ring ↔ Spelling j ring := by
  constructor
  · intro h
    unfold decode? at h
    split at h
    · exact .array (ofItems?_eq_some_iff.mp h)
    · simp only [Option.bind_eq_bind, Option.bind_eq_some_iff] at h
      obtain ⟨named, hnamed, items, hitems, h⟩ := h
      rw [mapM_members_iff.mp hnamed]
      rw [mapM_eq_some_iff] at hitems
      simp only [only?_eq_some_iff] at hitems
      exact .object (ofItems?_eq_some_iff.mp h) hitems
    · cases h
  · rintro (h | ⟨h, honly⟩)
    · exact ofItems?_eq_some_iff.mpr h
    · simp only [← only?_eq_some_iff] at honly
      rw [ofMembers, decode?]
      simp only [mapM_members_iff.mpr (Eq.refl (ofMembers _)), mapM_eq_some_iff.mpr honly,
        Option.bind_eq_bind, Option.bind_some]
      exact ofItems?_eq_some_iff.mpr h

end RingConfig

/-! ### Faithful forms -/

/-- The form reads just the JSON values that spell a value, and writes a plain one of them. -/
structure FaithfulForm (α : Type) [JsonForm α] (Spelling : Json → α → Prop) : Prop where
  plain : ∀ a : α, (JsonForm.encode a).IsPlain
  encode : ∀ a : α, Spelling (JsonForm.encode a) a
  decode?_iff : ∀ {j : Json} {a : α}, JsonForm.decode? j = some a ↔ Spelling j a

theorem RingName.faithfulForm : FaithfulForm RingName RingName.Spelling where
  plain n := .string n.text
  encode _ := rfl
  decode?_iff := decode?_eq_some_iff

theorem SyncMode.faithfulForm : FaithfulForm SyncMode SyncMode.Spelling where
  plain m := .string m.text
  encode _ := .alone
  decode?_iff := decode?_eq_some_iff

theorem Locality.faithfulForm : FaithfulForm Locality Locality.Spelling where
  plain
    | .any => .string "any"
    | .node n => .object (List.forall_mem_singleton.mpr (.number n.toNat))
  encode
    | .any => .any .alone
    | .node n => .node n
  decode?_iff := decode?_eq_some_iff

theorem FlushInterval.faithfulForm : FaithfulForm FlushInterval FlushInterval.Spelling where
  plain f := .number f.value.toNat
  encode _ := rfl
  decode?_iff := decode?_eq_some_iff

theorem SourceId.faithfulForm : FaithfulForm SourceId SourceId.Spelling where
  plain s := .number s.value.toNat
  encode _ := rfl
  decode?_iff := decode?_eq_some_iff

theorem ChannelId.faithfulForm : FaithfulForm ChannelId ChannelId.Spelling where
  plain c := .number c.value.toNat
  encode _ := rfl
  decode?_iff := decode?_eq_some_iff

theorem RingConfig.faithfulForm : FaithfulForm RingConfig RingConfig.Spelling where
  plain c := by
    refine .object ?_
    simp only [List.forall_mem_cons, List.not_mem_nil, false_implies, implies_true, and_true]
    exact ⟨.string c.name.text, .number _, .number _, .string c.producer.text,
      .string c.consumer.text⟩
  encode c := by
    refine .object (.intro .alone .alone) ?_
    simp only [fieldNames]
    exact .cons rfl (.cons rfl (.cons rfl (.cons rfl (.cons rfl .nil))))
  decode?_iff := decode?_eq_some_iff

namespace FaithfulForm

variable {α : Type} [JsonForm α] {Spelling : Json → α → Prop}

/-- A value is read from a text that holds a spelling of it, and from no other. -/
theorem readJson?_eq_some_iff (h : FaithfulForm α Spelling) {text : String} {a : α} :
    readJson? α text = some a ↔ ∃ j, Json.parse? text = some j ∧ Spelling j a := by
  rw [readJson?, Option.bind_eq_some_iff]
  exact exists_congr fun j => and_congr_right fun _ => h.decode?_iff

theorem readJson?_writeJson (h : FaithfulForm α Spelling) (a : α) :
    readJson? α (writeJson a) = some a :=
  h.readJson?_eq_some_iff.mpr ⟨_, (h.plain a).parse?_compact, h.encode a⟩

end FaithfulForm

/-! ### Going to JSON and back -/

/-- Values of the type go to JSON and back, and so do all that are read from any text. -/
structure RoundTrips (α : Type) [JsonForm α] (Spelling : Json → α → Prop) : Prop where
  written : ∀ a : α, readJson? α (writeJson a) = some a
  reread : ∀ text : String, ∀ a : α, readJson? α text = some a → readJson? α (writeJson a) = some a
  accepted : ∀ text : String, ∀ a : α,
    readJson? α text = some a ↔ ∃ j, Json.parse? text = some j ∧ Spelling j a

theorem FaithfulForm.roundTrips {α : Type} [JsonForm α] {Spelling : Json → α → Prop}
    (h : FaithfulForm α Spelling) : RoundTrips α Spelling where
  written := h.readJson?_writeJson
  reread _ a _ := h.readJson?_writeJson a
  accepted _ _ := h.readJson?_eq_some_iff

/-- What a ring may be called. -/
def RingName.Permitted (s : String) : Prop :=
  (1 ≤ s.utf8ByteSize ∧ s.utf8ByteSize ≤ 32) ∧ ∀ c ∈ s.toList, IsNameLetter c

/-- How often a loop may flush: never, or once in a power of two. -/
def FlushInterval.Permitted (n : Nat) : Prop := n = 0 ∨ ∃ k, n = 2 ^ k

theorem RingName.isRingName_iff {s : String} : IsRingName s ↔ Permitted s := by
  rw [IsRingName, letters_iff, Permitted, Nat.one_le_iff_ne_zero, Ne, Ne,
    String.utf8ByteSize_eq_zero_iff, and_assoc]
  rfl

theorem FlushInterval.valid_iff {w : UInt32} :
    (w = 0 ∨ isPowerOfTwo w.toNat = true) ↔ Permitted w.toNat := by
  rw [Permitted, isPowerOfTwo_iff, ← UInt32.toNat_inj]
  rfl

/-- A name is read from each string that may be one. -/
theorem RingName.exists_readJson?_iff {text s : String}
    (h : Json.parse? text = some (Json.ofString s)) :
    (∃ name, readJson? RingName text = some name) ↔ Permitted s := by
  simp only [faithfulForm.readJson?_eq_some_iff, h, Option.some.injEq, exists_eq_left', Spelling]
  constructor
  · rintro ⟨name, hname⟩
    rw [Json.ofString_inj.mp hname]
    exact isRingName_iff.mp name.isRingName
  · intro hs
    exact ⟨⟨s, isRingName_iff.mpr hs⟩, rfl⟩

/-- An interval is read from each number that may be one and fits its word. -/
theorem FlushInterval.exists_readJson?_iff {text : String} {n : Nat}
    (h : Json.parse? text = some (Json.ofNat n)) :
    (∃ f, readJson? FlushInterval text = some f) ↔ n < 2 ^ 32 ∧ Permitted n := by
  simp only [faithfulForm.readJson?_eq_some_iff, h, Option.some.injEq, exists_eq_left', Spelling]
  constructor
  · rintro ⟨f, hf⟩
    rw [JsonNumber.natural.inj (Json.number.inj hf)]
    exact ⟨f.value.toNat_lt, valid_iff.mp f.valid⟩
  · rintro ⟨hlt, hn⟩
    have hword : n.toUInt32.toNat = n := UInt32.toNat_ofNat_of_lt' hlt
    exact ⟨⟨n.toUInt32, valid_iff.mpr (hword.symm ▸ hn)⟩, congrArg ofNat hword.symm⟩

/-- Every value of a type with a JSON form is read back from its own text, what any text spells is
read as just that, and no text gives a name or an interval that the checks would refuse, nor is one
refused that they would accept. -/
theorem jsonForms_roundTrip :
    (RoundTrips RingName RingName.Spelling ∧ RoundTrips SyncMode SyncMode.Spelling ∧
      RoundTrips Locality Locality.Spelling ∧ RoundTrips FlushInterval FlushInterval.Spelling ∧
      RoundTrips SourceId SourceId.Spelling ∧ RoundTrips ChannelId ChannelId.Spelling ∧
      RoundTrips RingConfig RingConfig.Spelling) ∧
    (∀ text name, readJson? RingName text = some name → RingName.Permitted name.text) ∧
    (∀ text ring, readJson? RingConfig text = some ring → RingName.Permitted ring.name.text) ∧
    (∀ text f, readJson? FlushInterval text = some f → FlushInterval.Permitted f.value.toNat) ∧
    (∀ text s, Json.parse? text = some (Json.ofString s) →
      ((∃ name, readJson? RingName text = some name) ↔ RingName.Permitted s)) ∧
    (∀ text n, Json.parse? text = some (Json.ofNat n) →
      ((∃ f, readJson? FlushInterval text = some f) ↔ n < 2 ^ 32 ∧ FlushInterval.Permitted n)) :=
  ⟨⟨RingName.faithfulForm.roundTrips, SyncMode.faithfulForm.roundTrips,
      Locality.faithfulForm.roundTrips, FlushInterval.faithfulForm.roundTrips,
      SourceId.faithfulForm.roundTrips, ChannelId.faithfulForm.roundTrips,
      RingConfig.faithfulForm.roundTrips⟩,
    fun _ name _ => RingName.isRingName_iff.mp name.isRingName,
    fun _ ring _ => RingName.isRingName_iff.mp ring.name.isRingName,
    fun _ f _ => FlushInterval.valid_iff.mp f.valid,
    fun _ _ => RingName.exists_readJson?_iff, fun _ _ => FlushInterval.exists_readJson?_iff⟩

end BurstRing
