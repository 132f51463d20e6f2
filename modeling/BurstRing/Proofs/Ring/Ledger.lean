import BurstRing.Ring.Reading
import BurstRing.Proofs.Ring.Tile

/-!
# Claims are published in the order of their grants

One pair of cursors is claimed from and published on in any order: claims of every kind, with
readings that say anything and rivals that claim in the middle of them, and publications of any
claim granted before, also of one that is published already or not yet due.

The claims granted so far tile what the head has passed, in the order of their grants, and those
published are the first of them, up to the tail (`Ledger.Ordered`).  An exchange is granted only at
the head and a publication only at the tail, so a claim adds at the far end of the tiling
(`Cursors.passes_play`) and a publication takes from its near end (`Ledger.Ordered.publish_iff`).
The earliest claim that is not published can always be published, whatever its mode, so those who
wait for their turn never wait for each other.  The main statement is `Ledger.published_in_order`.
-/

namespace BurstRing

/-! ### Heads that pass claims -/

/-- A head gets from `a` to `b` over these claims, each of which starts where it stands. -/
inductive Passes : UInt64 → List Claim → UInt64 → Prop where
  | nil (a : UInt64) : Passes a [] a
  | cons {a b : UInt64} {c : Claim} {cs : List Claim} (start : c.start = a)
      (nonempty : 0 < c.len.toNat) (rest : Passes c.stop cs b) : Passes a (c :: cs) b

namespace Passes

variable {a b d : UInt64} {cs ds : List Claim}

theorem append (h : Passes a cs b) (h' : Passes b ds d) : Passes a (cs ++ ds) d := by
  induction h with
  | nil => exact h'
  | cons start nonempty _ ih => exact .cons start nonempty (ih h')

/-- Claims that a head passes without running over `2 ^ 64` tile what it passes. -/
theorem tile (h : Passes a cs b)
    (hbound : a.toNat + (cs.map fun c => c.len.toNat).sum < 2 ^ 64) :
    Tile a.toNat cs b.toNat := by
  induction h with
  | nil => exact .nil _
  | @cons a b c cs start nonempty rest ih =>
      subst start
      rw [List.map_cons, List.sum_cons] at hbound
      have hstop : c.stop.toNat = c.start.toNat + c.len.toNat := Claim.toNat_stop (by omega)
      exact .cons rfl (by omega) (ih (by omega))

end Passes

/-- What a reading leads to, if it leads to an exchange: a claim from the head that was loaded, and
not an empty one. -/
theorem judge_eq_reserve {limit : Option UInt64} {wanted start available : UInt64}
    {behavior : Behavior} {claim : Claim}
    (h : judge limit wanted behavior start available = .reserve claim) :
    claim.start = start ∧ 0 < claim.len.toNat := by
  unfold judge at h
  split at h
  · cases h
  · dsimp only at h
    split at h
    · cases h
    · rename_i hne
      cases h
      refine ⟨rfl, ?_⟩
      rw [Claim.len, UInt64.add_comm, UInt64.add_sub_cancel, ← UInt64.toNat_zero,
        ← UInt64.lt_iff_toNat_lt]
      exact UInt64.pos_iff_ne_zero.mpr hne

/-- What a claim in the middle grants comes before what is granted after it. -/
theorem Ledger.grants_rival (inner report : ClaimReport) :
    Ledger.grants { report with rivals := inner.rivals ++ inner.outcome :: report.rivals } =
      Ledger.grants inner ++ Ledger.grants report := by
  simp only [Ledger.grants, ← List.filterMap_append, List.append_assoc, List.cons_append,
    List.nil_append]

namespace Cursors

/-- An exchange moves the head over the claim, which then starts where it stood, or moves
nothing. -/
theorem exchange_cases (mode : SyncMode) (claim : Claim) (s : Cursors) :
    s.exchange mode claim = (.granted, ⟨claim.stop, s.tail⟩) ∧ claim.start = s.head ∨
      s.exchange mode claim = (.lost, s) ∨ s.exchange mode claim = (.misuse, s) := by
  unfold exchange
  split
  · rename_i hhead
    exact .inl ⟨rfl, hhead.symm⟩
  · cases mode with
    | single => exact .inr (.inr rfl)
    | multi => exact .inr (.inl rfl)

/-- A publication moves the tail over the claim if it stands at its start, and nothing else. -/
theorem publish_cases (mode : SyncMode) (claim : Claim) (s : Cursors) :
    s.publish mode claim = (.published, s.release claim) ∧ s.tail = claim.start ∨
      s.publish mode claim = (.waiting, s) ∧ s.tail ≠ claim.start ∨
      s.publish mode claim = (.misuse, s) ∧ s.tail ≠ claim.start := by
  unfold publish
  split
  · rename_i htail
    exact .inl ⟨rfl, htail⟩
  · rename_i hne
    cases mode with
    | single => exact .inr (.inr ⟨rfl, hne⟩)
    | multi => exact .inr (.inl ⟨rfl, hne⟩)

/-- A claim passes what is granted in its middle and then, if it is granted anything, its own range;
it leaves the tail where it is. -/
theorem passes_play (script : ClaimScript) :
    ∀ (limit : UInt64) (request : Request) (start : UInt64) (s : Cursors),
    Passes s.head (Ledger.grants (s.play script limit request start))
        (s.play script limit request start).cursors.head ∧
      (s.play script limit request start).cursors.tail = s.tail := by
  induction script with
  | done => intro _ _ _ s; exact ⟨.nil _, rfl⟩
  | rival other otherLimit script rest ihScript ihRest =>
      intro limit request start s
      obtain ⟨hinner, hinnerTail⟩ := ihScript (otherLimit.getD limit) other s.head s
      obtain ⟨hrest, hrestTail⟩ := ihRest limit request start
        (s.play script (otherLimit.getD limit) other s.head).cursors
      refine ⟨?_, hrestTail.trans hinnerTail⟩
      simp only [play, Ledger.grants_rival]
      exact hinner.append hrest
  | reading supply rest ih =>
      intro limit request start s
      -- A reading that does not decide leaves everything as it is.
      have hagain := ih limit request s.head s
      rw [play]
      dsimp only
      split
      · exact hagain
      · exact ⟨.nil _, rfl⟩
      · rename_i claim hjudge
        obtain ⟨hstart, hpos⟩ := judge_eq_reserve hjudge
        rcases exchange_cases request.mode claim s with ⟨heq, hhead⟩ | heq | heq <;> rw [heq]
        · exact ⟨.cons hhead hpos (.nil _), rfl⟩
        · exact hagain
        · exact ⟨.nil _, rfl⟩

end Cursors

/-! ### Histories -/

/-- The deed tests what it finds, as one beside others has to. -/
def Deed.IsShared : Deed → Prop
  | .claim _ _ | .publish _ _ => True
  | .claimOwned _ _ _ | .publishOwned _ => False

instance Deed.decidableIsShared : (d : Deed) → Decidable d.IsShared
  | .claim _ _ | .publish _ _ => .isTrue trivial
  | .claimOwned _ _ _ | .publishOwned _ => .isFalse id

/-- The number of the claim that a deed has published. -/
def Deed.published? : Deed → Result → Option Nat
  | .publish id _, .published .published => some id
  | _, _ => none

namespace Ledger

/-- Does one deed after another, each under a limit of its own. -/
def run : List (UInt64 × Deed) → Ledger → List Result × Ledger
  | [], l => ([], l)
  | (limit, deed) :: deeds, l =>
    let (result, l) := l.act limit deed
    let (results, l) := l.run deeds
    (result :: results, l)

/-- The numbers of the claims that deeds have published, in order. -/
def publications (deeds : List (UInt64 × Deed)) (results : List Result) : List Nat :=
  (deeds.zip results).filterMap fun (d, result) => d.2.published? result

theorem publications_cons (d : UInt64 × Deed) (deeds : List (UInt64 × Deed)) (result : Result)
    (results : List Result) : publications (d :: deeds) (result :: results) =
      (d.2.published? result).toList ++ publications deeds results := by
  cases h : d.2.published? result with
  | none => exact List.filterMap_cons_none h
  | some id => exact List.filterMap_cons_some h

/-- Positions granted in all. -/
def total (l : Ledger) : Nat := (l.granted.toList.map fun c => c.len.toNat).sum

/-- The first `n` claims tile what lies before the tail, and the others what lies between the tail
and the head. -/
structure Ordered (n : Nat) (l : Ledger) : Prop where
  le_size : n ≤ l.granted.size
  published : Tile 0 (l.granted.toList.take n) l.cursors.tail.toNat
  unpublished : Tile l.cursors.tail.toNat (l.granted.toList.drop n) l.cursors.head.toNat

theorem act_publish {l : Ledger} {id : Nat} {claim : Claim} (h : l.granted[id]? = some claim)
    (limit : UInt64) (mode : SyncMode) :
    l.act limit (.publish id mode) =
      (.published (l.cursors.publish mode claim).1,
        { l with cursors := (l.cursors.publish mode claim).2 }) := by
  rw [act, h]

namespace Ordered

variable {n : Nat} {l : Ledger}

theorem empty : empty.Ordered 0 := ⟨Nat.le_refl 0, .nil 0, .nil 0⟩

theorem granted (h : l.Ordered n) : Tile 0 l.granted.toList l.cursors.head.toNat := by
  have hall := h.published.append h.unpublished
  rwa [List.take_append_drop] at hall

theorem total_eq (h : l.Ordered n) : l.total = l.cursors.head.toNat := by
  rw [total, ← h.granted.sum_len, Nat.zero_add]

/-- Only the earliest claim that is not published starts at the tail. -/
theorem start_eq_tail_iff (h : l.Ordered n) {id : Nat} (hid : id < l.granted.size) :
    l.cursors.tail = l.granted[id].start ↔ id = n := by
  have hlen : id < l.granted.toList.length := by rwa [Array.length_toList]
  rw [← Array.getElem_toList hid]
  rcases Nat.lt_or_ge id n with hlt | hge
  · -- A published claim lies before the tail.
    have hmem : l.granted.toList[id] ∈ l.granted.toList.take n :=
      List.mem_take_iff_getElem.mpr ⟨id, by omega, rfl⟩
    obtain ⟨-, hpos, hstop⟩ := h.published.bounds hmem
    refine iff_of_false (fun heq => ?_) (Nat.ne_of_lt hlt)
    rw [heq] at hstop
    omega
  · have hdrop := List.drop_eq_getElem_cons (Nat.lt_of_le_of_lt hge hlen)
    have htile := h.unpublished
    rw [hdrop] at htile
    cases htile with
    | cons start nonempty rest =>
        constructor
        · intro heq
          by_contra hne
          -- A later claim starts where the earliest stops, or after it.
          have hmem : l.granted.toList[id] ∈ l.granted.toList.drop (n + 1) :=
            List.mem_drop_iff_getElem.mpr
              ⟨id - (n + 1), by omega, by congr 1; omega⟩
          have hbounds := (rest.bounds hmem).1
          rw [← heq] at hbounds
          omega
        · rintro rfl
          exact UInt64.toNat_inj.mp start.symm

theorem publish_iff (h : l.Ordered n) {id : Nat} (hid : id < l.granted.size) (mode : SyncMode) :
    (l.cursors.publish mode l.granted[id]).1 = .published ↔ id = n := by
  rw [← h.start_eq_tail_iff hid]
  rcases Cursors.publish_cases mode l.granted[id] l.cursors with
    ⟨heq, htail⟩ | ⟨heq, hne⟩ | ⟨heq, hne⟩
  · exact iff_of_true (by rw [heq]) htail
  · exact iff_of_false (by rw [heq]; nofun) hne
  · exact iff_of_false (by rw [heq]; nofun) hne

/-- A granted claim is added at the far end. -/
theorem enter (h : l.Ordered n) {report : ClaimReport}
    (hpasses : Passes l.cursors.head (grants report) report.cursors.head)
    (htail : report.cursors.tail = l.cursors.tail)
    (hbound : (l.enter report).2.total < 2 ^ 64) : (l.enter report).2.Ordered n := by
  have hlist : (l.enter report).2.granted.toList = l.granted.toList ++ grants report := by
    rw [Ledger.enter, Array.toList_append]
  have hle : n ≤ l.granted.toList.length := by
    rw [Array.length_toList]
    exact h.le_size
  have htile := hpasses.tile (by
    rw [total, hlist, List.map_append, List.sum_append, ← total, h.total_eq] at hbound
    exact hbound)
  refine ⟨?_, ?_, ?_⟩
  · rw [← Array.length_toList, hlist, List.length_append]
    omega
  · rw [hlist, List.take_append_of_le_length hle]
    exact htail ▸ h.published
  · rw [hlist, List.drop_append_of_le_length hle]
    refine Tile.append ?_ htile
    exact htail ▸ h.unpublished

/-- Publishing the claim whose turn it is leaves the next one at the near end. -/
theorem release (h : l.Ordered n) (hn : n < l.granted.size) :
    Ordered (n + 1) { l with cursors := l.cursors.release l.granted[n] } := by
  have hlen : n < l.granted.toList.length := by rwa [Array.length_toList]
  have htile := h.unpublished
  rw [List.drop_eq_getElem_cons hlen, Array.getElem_toList] at htile
  cases htile with
  | cons start nonempty rest =>
      refine ⟨hn, ?_, rest⟩
      rw [List.take_succ_eq_append_getElem hlen, Array.getElem_toList]
      exact h.published.snoc start nonempty

theorem act (h : l.Ordered n) (limit : UInt64) {deed : Deed} (hshared : deed.IsShared)
    (hbound : (l.act limit deed).2.total < 2 ^ 64) :
    match deed.published? (l.act limit deed).1 with
    | none => (l.act limit deed).2.Ordered n
    | some id => id = n ∧ (l.act limit deed).2.Ordered (n + 1) := by
  cases deed with
  | claim request script =>
      obtain ⟨hpasses, htail⟩ := l.cursors.passes_play script limit request l.cursors.head
      exact h.enter hpasses htail hbound
  | publish id mode =>
      cases hget : l.granted[id]? with
      | none =>
          simp only [Ledger.act, hget]
          exact h
      | some claim =>
          obtain ⟨hid, rfl⟩ := Array.getElem?_eq_some_iff.mp hget
          rw [act_publish hget]
          rcases Cursors.publish_cases mode l.granted[id] l.cursors with
            ⟨heq, htail⟩ | ⟨heq, -⟩ | ⟨heq, -⟩
          · rw [heq]
            obtain rfl := (h.start_eq_tail_iff hid).mp htail
            exact ⟨rfl, h.release hid⟩
          · rw [heq]
            exact h
          · rw [heq]
            exact h
  | claimOwned => exact hshared.elim
  | publishOwned => exact hshared.elim

end Ordered

theorem total_act_le (l : Ledger) (limit : UInt64) (deed : Deed) :
    l.total ≤ (l.act limit deed).2.total := by
  have henter : ∀ report, l.total ≤ (l.enter report).2.total := by
    intro report
    rw [total, total, Ledger.enter, Array.toList_append, List.map_append, List.sum_append]
    exact Nat.le_add_right _ _
  cases deed with
  | claim => exact henter _
  | claimOwned => exact henter _
  | publish id mode => simp only [act]; split <;> exact Nat.le_refl _
  | publishOwned id => simp only [act]; split <;> exact Nat.le_refl _

theorem total_run_le (deeds : List (UInt64 × Deed)) :
    ∀ l : Ledger, l.total ≤ (l.run deeds).2.total := by
  induction deeds with
  | nil => intro l; exact Nat.le_refl _
  | cons d deeds ih => intro l; exact (l.total_act_le d.1 d.2).trans (ih _)

/-- A history publishes the claims that follow those published before, one after another. -/
theorem Ordered.run {deeds : List (UInt64 × Deed)} (hshared : ∀ d ∈ deeds, d.2.IsShared) :
    ∀ {l : Ledger} {n : Nat}, l.Ordered n → (l.run deeds).2.total < 2 ^ 64 →
      ∃ m, publications deeds (l.run deeds).1 = List.range' n m ∧
        (l.run deeds).2.Ordered (n + m) := by
  induction deeds with
  | nil => intro l n h _; exact ⟨0, rfl, h⟩
  | cons d deeds ih =>
      intro l n h hbound
      obtain ⟨limit, deed⟩ := d
      have hact := h.act limit (hshared _ List.mem_cons_self)
        ((total_run_le deeds (l.act limit deed).2).trans_lt hbound)
      have hrest : ∀ d ∈ deeds, d.2.IsShared := fun d hd => hshared d (List.mem_cons_of_mem _ hd)
      simp only [Ledger.run, publications_cons]
      cases hpublished : deed.published? (l.act limit deed).1 with
      | none =>
          rw [hpublished] at hact
          exact ih hrest hact hbound
      | some id =>
          rw [hpublished] at hact
          obtain ⟨rfl, hact⟩ := hact
          obtain ⟨m, hrange, hlast⟩ := ih hrest hact hbound
          refine ⟨m + 1, ?_, ?_⟩
          · rw [List.range'_succ, hrange, Option.toList_some, List.singleton_append]
          · rwa [Nat.add_assoc, Nat.add_comm 1 m] at hlast

/-- Whatever is claimed and published on one pair of cursors, the claims granted are not empty and
tile what the head has passed; those published are the first of them, each published once and in
the order of the grants, and the tail is where the last of these stops; and of all claims the
earliest that is not published, and no other, can be published, in either mode. -/
theorem published_in_order (deeds : List (UInt64 × Deed)) (hshared : ∀ d ∈ deeds, d.2.IsShared)
    (hbound : (empty.run deeds).2.total < 2 ^ 64) :
    let results := (empty.run deeds).1
    let l := (empty.run deeds).2
    Tile 0 l.granted.toList l.cursors.head.toNat ∧
      ∃ n ≤ l.granted.size, publications deeds results = List.range n ∧
        l.cursors.tail.toNat =
          ((l.granted.toList.take n).getLast?.map (·.stop.toNat)).getD 0 ∧
        ∀ id (hid : id < l.granted.size) mode,
          (l.cursors.publish mode l.granted[id]).1 = .published ↔ id = n := by
  intro results l
  obtain ⟨n, hrange, hordered⟩ := Ordered.empty.run hshared hbound
  rw [Nat.zero_add] at hordered
  exact ⟨hordered.granted, n, hordered.le_size, hrange.trans List.range_eq_range'.symm,
    hordered.published.eq_getLast?_stop, fun _ hid mode => hordered.publish_iff hid mode⟩

/-- The first claim loses its head to another and reads again, the second is misused by another;
then claims are published too early, in turn and twice. -/
def interrupted : List (UInt64 × Deed) :=
  [(8, .claim ⟨3, .atMost, .multi⟩
      (.rival ⟨2, .exactly, .single⟩ none (.reading (.entries 8) .done)
        (.reading (.entries 8) (.reading (.entries 20) (.reading (.upTo 6) .done))))),
    (8, .claim ⟨4, .exactly, .single⟩
      (.rival ⟨9, .atMost, .multi⟩ (some 1) (.reading (.entries 1) .done)
        (.reading (.entries 4) .done))),
    (8, .publish 1 .multi), (8, .publish 2 .single), (8, .publish 0 .single),
    (8, .publish 0 .multi), (8, .publish 1 .multi), (8, .publish 7 .multi)]

theorem published_in_order_interrupted :
    let l := (empty.run interrupted).2
    l.granted = #[⟨0, 2⟩, ⟨2, 5⟩, ⟨5, 6⟩] ∧
      publications interrupted (empty.run interrupted).1 = [0, 1] ∧
      Tile 0 l.granted.toList 6 ∧ l.cursors.tail = 5 := by
  obtain ⟨htile, -⟩ := published_in_order interrupted (by decide) (by decide +kernel)
  exact ⟨by decide +kernel, by decide +kernel, htile, by decide +kernel⟩

end Ledger

end BurstRing
