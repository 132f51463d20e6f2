import BurstRing.Proofs.Ring.Alone
import BurstRing.Proofs.Ring.Ledger

/-!
# The first round that can decide a claim does

A claim goes round: it loads its head, asks how much there is to claim from there, and exchanges
the head.  Before the answer comes back others may claim on the same cursors.  `ClaimScript.rounds`
lists the rounds that there are as long as none decides: each of them loads the head that the one
before has left, and only claims of others come between (`Interrupted`).

A round decides if its reading is within the limit and the claim need not go round again: because
there is nothing to take, or the head stands where it was loaded, or the side is for one caller
(`Round.Decides`).  What it comes to is read off the round alone (`Round.Settles`).  One round of a
claim either decides and settles it (`Cursors.play_of_decides`), or leaves everything as it is to
the next one (`Cursors.play_of_not_decides`); so by induction on the script it is the first round
that decides which settles the claim, after one reading in each round up to it
(`Cursors.decided_by_first`).  An exchange fails here only because the head has moved.
-/

namespace BurstRing

/-! ### Rounds -/

/-- One round of a claim: the cursors as its head was loaded, what the reading then told, and the
cursors as the reading returned. -/
structure Round where
  loaded : Cursors
  available : UInt64
  left : Cursors
  deriving DecidableEq, Repr

/-- The rounds of a claim that none of its readings decides: it has loaded its head from `loaded`,
and others may have moved the cursors since. -/
def ClaimScript.rounds (limit : UInt64) : ClaimScript → (loaded s : Cursors) → List Round
  | .done, _, _ => []
  | .rival other otherLimit script rest, loaded, s =>
    rest.rounds limit loaded (s.claim (otherLimit.getD limit) other script).cursors
  | .reading supply rest, loaded, s => ⟨loaded, supply.at loaded.head, s⟩ :: rest.rounds limit s s

/-- What the readings report, one after another. -/
def ClaimScript.supplies : ClaimScript → List Supply
  | .done => []
  | .rival _ _ _ rest => rest.supplies
  | .reading supply rest => supply :: rest.supplies

/-- Only claims of others lead from the first cursors to the second. -/
inductive Interrupted : Cursors → Cursors → Prop where
  | refl (s : Cursors) : Interrupted s s
  | more {s t : Cursors} (h : Interrupted s t) (limit : UInt64) (request : Request)
      (script : ClaimScript) : Interrupted s (t.claim limit request script).cursors

theorem Interrupted.trans {s t u : Cursors} (h : Interrupted s t) (h' : Interrupted t u) :
    Interrupted s u := by
  induction h' with
  | refl => exact h
  | more _ limit request script ih => exact .more ih limit request script

namespace ClaimScript

/-- Each round loads the head that the one before has left. -/
theorem map_loaded_rounds (limit : UInt64) (script : ClaimScript) : ∀ loaded s : Cursors,
    (script.rounds limit loaded s).map Round.loaded =
      (loaded :: (script.rounds limit loaded s).map Round.left).dropLast := by
  induction script with
  | done => intro loaded s; rfl
  | rival other otherLimit script rest _ ih => intro loaded s; exact ih loaded _
  | reading supply rest ih =>
      intro loaded s
      rw [rounds, List.map_cons, List.map_cons, ih, List.dropLast_cons_cons]

/-- There is one round for each reading, which tells what is there from the head it has loaded. -/
theorem forall₂_rounds_supplies (limit : UInt64) (script : ClaimScript) : ∀ loaded s : Cursors,
    List.Forall₂ (fun round supply => round.available = supply.at round.loaded.head)
      (script.rounds limit loaded s) script.supplies := by
  induction script with
  | done => intro loaded s; exact .nil
  | rival other otherLimit script rest _ ih => intro loaded s; exact ih loaded _
  | reading supply rest ih => intro loaded s; exact .cons rfl (ih s s)

/-- As long as no round decides, only others move the cursors. -/
theorem interrupted_of_mem_rounds (limit : UInt64) (script : ClaimScript) :
    ∀ {loaded s : Cursors}, Interrupted loaded s →
      ∀ round ∈ script.rounds limit loaded s, Interrupted round.loaded round.left := by
  induction script with
  | done => nofun
  | rival other otherLimit script rest _ ih =>
      intro loaded s h
      exact ih (h.more (otherLimit.getD limit) other script)
  | reading supply rest ih =>
      intro loaded s h round hmem
      rcases List.mem_cons.mp hmem with rfl | hmem
      · exact h
      · exact ih (.refl s) round hmem

end ClaimScript

/-! ### Rounds that decide -/

namespace Round

/-- Positions that the request takes of those the round has read. -/
def share (request : Request) (round : Round) : Nat :=
  request.behavior.share request.wanted.toNat round.available.toNat

/-- The reading is within the limit, and there is no reason to go round again: there is nothing to
take, or the head stands where it was loaded, or the side is for one caller. -/
def Decides (limit : UInt64) (request : Request) (round : Round) : Prop :=
  round.available ≤ limit ∧
    (round.share request = 0 ∨ round.left.head = round.loaded.head ∨ request.mode = .single)

/-- How a claim ends with a round that decides, and the cursors after it. -/
inductive Settles (request : Request) (round : Round) : Outcome → Cursors → Prop where
  | nothing (none : round.share request = 0) : Settles request round .nothing round.left
  /-- The head is moved over the share. -/
  | granted {claim : Claim} (some : round.share request ≠ 0)
      (unmoved : round.left.head = round.loaded.head) (start : claim.start = round.loaded.head)
      (len : claim.len.toNat = round.share request) :
      Settles request round (.granted claim) ⟨round.loaded.head + claim.len, round.left.tail⟩
  /-- Another caller was found on a side for one. -/
  | misuse (some : round.share request ≠ 0) (moved : round.left.head ≠ round.loaded.head)
      (single : request.mode = .single) : Settles request round .misuse round.left

end Round

/-! ### One round -/

theorem judge_above {limit wanted start available : UInt64} {behavior : Behavior}
    (h : ¬ available ≤ limit) : judge (some limit) wanted behavior start available = .reread := by
  rw [judge, Option.any_some, decide_eq_true (UInt64.not_le.mp h), if_pos rfl]

theorem judge_nothing {limit wanted start available : UInt64} {behavior : Behavior}
    (hle : available ≤ limit) (h : behavior.share wanted.toNat available.toNat = 0) :
    judge (some limit) wanted behavior start available = .nothing := by
  have htake : take wanted behavior available = 0 := by
    rw [← UInt64.toNat_inj, toNat_take, h, UInt64.toNat_zero]
  simp only [judge, Option.any_some, decide_eq_false (UInt64.not_lt.mpr hle), htake]
  rfl

theorem judge_reserve {limit wanted start available : UInt64} {behavior : Behavior}
    (hle : available ≤ limit) (h : behavior.share wanted.toNat available.toNat ≠ 0) :
    judge (some limit) wanted behavior start available =
      .reserve ⟨start, start + take wanted behavior available⟩ := by
  have htake : take wanted behavior available ≠ 0 := by
    rwa [ne_eq, ← UInt64.toNat_inj, toNat_take, UInt64.toNat_zero]
  simp only [judge, Option.any_some, decide_eq_false (UInt64.not_lt.mpr hle), htake]
  rfl

namespace Cursors

variable {limit : UInt64} {request : Request} {supply : Supply} {rest : ClaimScript}
  {loaded s : Cursors}

/-- A round that does not decide leaves everything to the next one. -/
theorem play_of_not_decides
    (h : ¬ (⟨loaded, supply.at loaded.head, s⟩ : Round).Decides limit request) :
    s.play (.reading supply rest) limit request loaded.head =
      { s.claim limit request rest with reads := (s.claim limit request rest).reads + 1 } := by
  rw [play]
  by_cases hle : supply.at loaded.head ≤ limit
  · obtain ⟨hshare, hrest⟩ := not_or.mp fun hor => h ⟨hle, hor⟩
    obtain ⟨hmoved, hmulti⟩ := not_or.mp hrest
    rw [judge_reserve hle hshare]
    cases hmode : request.mode with
    | single => exact absurd hmode hmulti
    | multi => simp only [exchange, if_neg hmoved]; rfl
  · rw [judge_above hle]
    rfl

/-- A round that decides settles the claim. -/
theorem play_of_decides
    (h : (⟨loaded, supply.at loaded.head, s⟩ : Round).Decides limit request) :
    let round : Round := ⟨loaded, supply.at loaded.head, s⟩
    let report := s.play (.reading supply rest) limit request loaded.head
    report.reads = 1 ∧ round.Settles request report.outcome report.cursors := by
  obtain ⟨hle, hend⟩ := h
  intro round report
  by_cases hshare : round.share request = 0
  · have hreport : report = ⟨.nothing, 1, [], s⟩ := by
      simp only [report, play, judge_nothing hle hshare]
    rw [hreport]
    exact ⟨rfl, .nothing hshare⟩
  by_cases hhead : s.head = loaded.head
  · set n := take request.wanted request.behavior (supply.at loaded.head) with hn
    have hreport : report =
        ⟨.granted ⟨loaded.head, loaded.head + n⟩, 1, [], ⟨loaded.head + n, s.tail⟩⟩ := by
      simp only [report, play, judge_reserve hle hshare, exchange, if_pos hhead, hn]
    have hlen := Claim.len_mk loaded.head n
    have hgranted : round.Settles request (.granted ⟨loaded.head, loaded.head + n⟩)
        ⟨loaded.head + Claim.len _, s.tail⟩ :=
      .granted hshare hhead rfl (by rw [hlen]; exact toNat_take _ _ _)
    rw [hlen] at hgranted
    rw [hreport]
    exact ⟨rfl, hgranted⟩
  · have hsingle : request.mode = .single := (hend.resolve_left hshare).resolve_left hhead
    have hreport : report = ⟨.misuse, 1, [], s⟩ := by
      simp only [report, play, judge_reserve hle hshare, exchange, if_neg hhead, hsingle]
    rw [hreport]
    exact ⟨rfl, .misuse hshare hhead hsingle⟩

/-! ### All rounds -/

/-- The first round that decides settles the claim. -/
theorem settled_by_first (script : ClaimScript) :
    ∀ {loaded s : Cursors} {before after : List Round} {round : Round},
      script.rounds limit loaded s = before ++ round :: after →
      (∀ r ∈ before, ¬ r.Decides limit request) → round.Decides limit request →
        let report := s.play script limit request loaded.head
        report.reads = before.length + 1 ∧
          round.Settles request report.outcome report.cursors := by
  induction script with
  | done =>
      intro loaded s before after round hrounds
      exact absurd hrounds.symm (List.append_ne_nil_of_right_ne_nil _ (List.cons_ne_nil _ _))
  | rival other otherLimit script rest _ ih =>
      intro loaded s before after round hrounds hbefore hround
      exact ih hrounds hbefore hround
  | reading supply rest ih =>
      intro loaded s before after round hrounds hbefore hround
      cases before with
      | nil =>
          obtain ⟨rfl, -⟩ := List.cons.inj hrounds
          exact play_of_decides hround
      | cons first before =>
          obtain ⟨rfl, hrest⟩ := List.cons.inj hrounds
          have hsettled := ih hrest (fun r hr => hbefore r (List.mem_cons_of_mem _ hr)) hround
          rw [play_of_not_decides (hbefore _ List.mem_cons_self)]
          exact ⟨congrArg (· + 1) hsettled.1, hsettled.2⟩

/-- Without such a round all readings are made, and the claim moves nothing. -/
theorem undecided_of_rounds (script : ClaimScript) :
    ∀ {loaded s : Cursors}, (∀ r ∈ script.rounds limit loaded s, ¬ r.Decides limit request) →
      let report := s.play script limit request loaded.head
      report.outcome = .undecided ∧ report.reads = (script.rounds limit loaded s).length ∧
        Interrupted s report.cursors := by
  induction script with
  | done => intro loaded s _; exact ⟨rfl, rfl, .refl s⟩
  | rival other otherLimit script rest _ ih =>
      intro loaded s hrounds
      obtain ⟨houtcome, hreads, hcursors⟩ := ih hrounds
      exact ⟨houtcome, hreads, ((Interrupted.refl s).more _ other script).trans hcursors⟩
  | reading supply rest ih =>
      intro loaded s hrounds
      obtain ⟨houtcome, hreads, hcursors⟩ :=
        ih fun r hr => hrounds r (List.mem_cons_of_mem _ hr)
      rw [play_of_not_decides (hrounds _ List.mem_cons_self)]
      exact ⟨houtcome, congrArg (· + 1) hreads, hcursors⟩

/-- **Decided by the first.**  Whatever the readings say and whatever others claim in the middle of
them, the rounds of a claim follow one another, each against the head that the one before has left
and with nothing but claims of others between its load and the return of its reading.  The first
round that decides settles the claim, and the readings made are those up to it; if none decides, all
are made and the claim has moved nothing.  The tail is never moved. -/
theorem decided_by_first (limit : UInt64) (request : Request) (script : ClaimScript)
    (s : Cursors) :
    let rounds := script.rounds limit s s
    let report := s.claim limit request script
    (rounds.map Round.loaded = (s :: rounds.map Round.left).dropLast ∧
      List.Forall₂ (fun round supply => round.available = supply.at round.loaded.head) rounds
        script.supplies ∧
      ∀ round ∈ rounds, Interrupted round.loaded round.left) ∧
    (∀ k (hk : k < rounds.length), rounds[k].Decides limit request →
      (∀ i (hi : i < k), ¬ rounds[i].Decides limit request) →
        report.reads = k + 1 ∧ rounds[k].Settles request report.outcome report.cursors) ∧
    ((∀ round ∈ rounds, ¬ round.Decides limit request) →
      report.outcome = .undecided ∧ report.reads = rounds.length ∧
        Interrupted s report.cursors) ∧
    report.cursors.tail = s.tail := by
  intro rounds report
  refine ⟨⟨script.map_loaded_rounds limit s s, script.forall₂_rounds_supplies limit s s,
    script.interrupted_of_mem_rounds limit (.refl s)⟩, fun k hk hround hbefore => ?_,
    undecided_of_rounds script, (s.passes_play script limit request s.head).2⟩
  have hrounds : rounds = rounds.take k ++ rounds[k] :: rounds.drop (k + 1) := by
    rw [← List.drop_eq_getElem_cons hk, List.take_append_drop]
  have hlen : (rounds.take k).length = k := List.length_take_of_le (Nat.le_of_lt hk)
  have hsettled := settled_by_first script hrounds (fun r hr => ?_) hround
  · rwa [hlen] at hsettled
  · obtain ⟨i, hi, rfl⟩ := List.mem_take_iff_getElem.mp hr
    exact hbefore i (by omega)

/-- A torn reading, a race that is lost, and a share of what is there. -/
example :
    let torn : Reading := ⟨none, .upTo 4⟩
    let lost : Reading := ⟨some (⟨2, .exactly, .multi⟩, 8), .upTo 12⟩
    let script : ClaimScript := ClaimScript.ofReadings [torn, lost, ⟨none, .upTo 12⟩]
    claim 8 ⟨16, .atMost, .multi⟩ script ⟨6, 6⟩ =
        ⟨.granted ⟨8, 12⟩, 3, [.granted ⟨6, 8⟩], ⟨12, 6⟩⟩ ∧
      script.rounds 8 ⟨6, 6⟩ ⟨6, 6⟩ =
        [⟨⟨6, 6⟩, 0 - 2, ⟨6, 6⟩⟩, ⟨⟨6, 6⟩, 6, ⟨8, 6⟩⟩, ⟨⟨8, 6⟩, 4, ⟨8, 6⟩⟩] := by
  decide +kernel

end Cursors

end BurstRing
