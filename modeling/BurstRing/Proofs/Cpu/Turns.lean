import BurstRing.Cpu.Allocator
import Mathlib.Data.List.Rotate

/-!
# CPUs are given in turn

Any number of threads ask one allocator for CPUs.  A request moves the counter on in one atomic
step, which draws it a turn, and is served the CPU of its turn later, when other requests may have
drawn theirs (`CpuRequest.step`).  So the requests that have drawn hold the turns from zero on, each
of them once, and what a request is served depends on its turn and its locality only.  Both are
kept by every step (`CpuDesk.InTurn`, with one lemma for each kind of step) and so hold after every
schedule (`CpuDesk.InTurn.run`).

Of the CPUs that a locality may be given (`CpuAllocator.cpusFor`) the request of turn `i` gets the
one at place `i`, going round (`CpuAllocator.HasCpus.allot_cpu`).  Requests with as many turns in a
row are therefore given a rotation of these CPUs (`CpuDesk.InTurn.rotate`), and every CPU is given
as often as it is listed.  The main statement is `CpuDesk.serves_in_turn`.
-/

namespace BurstRing

/-! ### Pools -/

namespace CpuPool

variable {p : CpuPool}

/-- The CPUs of the pool, in order. -/
def entries : CpuPool → List UInt64
  | .all count => (List.range count.toNat).map Nat.toUInt64
  | .listed cpus => cpus.toList

theorem toNat_size (h : p.entries.length < UInt64.size) : p.size.toNat = p.entries.length := by
  cases p with
  | all count => rw [size, entries, List.length_map, List.length_range]
  | listed cpus => exact UInt64.toNat_ofNat_of_lt' h

/-- The CPU at a place of a pool that has any. -/
theorem pick?_eq (hne : p.entries ≠ []) (h : p.entries.length < UInt64.size) (i : UInt64) :
    p.pick? i = p.entries[i.toNat % p.entries.length]? := by
  have hsize := toNat_size h
  have hpos : 0 < p.entries.length := List.length_pos_iff.mpr hne
  have hzero : p.size ≠ 0 := by
    intro hzero
    rw [hzero, UInt64.toNat_zero] at hsize
    omega
  unfold pick?
  rw [if_neg hzero]
  cases p with
  | all count =>
      have hlt : i.toNat % count.toNat < count.toNat := Nat.mod_lt _ (hsize ▸ hpos)
      rw [entries, List.length_map, List.length_range, List.getElem?_map,
        List.getElem?_range hlt, Option.map_some, ← UInt64.toNat_mod]
      exact congrArg some UInt64.ofNat_toNat.symm
  | listed cpus =>
      rw [size] at hsize
      dsimp only
      rw [UInt64.toNat_mod, hsize, entries, Array.getElem?_toList]

end CpuPool

/-! ### The CPUs for a locality -/

namespace CpuAllocator

variable {a : CpuAllocator}

def allCpus (a : CpuAllocator) : List UInt64 := (List.range a.cpuCount.toNat).map Nat.toUInt64

/-- The CPUs of the node asked for, or all of them if it is not known to have any. -/
def cpusFor (a : CpuAllocator) : Locality → List UInt64
  | .any => a.allCpus
  | .node n =>
    let own := (a.nodes.getD n.toNat #[]).toList
    if own = [] then a.allCpus else own

theorem entries_pool (a : CpuAllocator) (locality : Locality) :
    (a.pool locality).entries = a.cpusFor locality := by
  cases locality with
  | any => rfl
  | node n =>
      rw [pool, cpusFor, Array.getD_eq_getD_getElem?]
      cases a.nodes[n.toNat]? with
      | none => rfl
      | some cpus =>
          dsimp only [Option.getD_some]
          by_cases hempty : cpus = #[]
          · subst hempty
            rfl
          · rw [if_neg (by simpa using hempty), if_neg (by simpa using hempty)]
            rfl

/-- There are CPUs, and no list of them is longer than a word can tell. -/
structure HasCpus (a : CpuAllocator) : Prop where
  count_ne_zero : a.cpuCount ≠ 0
  size_lt : ∀ cpus ∈ a.nodes, cpus.size < UInt64.size

theorem HasCpus.allCpus_ne_nil (h : a.HasCpus) : a.allCpus ≠ [] := by
  rw [allCpus, Ne, List.map_eq_nil_iff, List.range_eq_nil]
  exact fun hzero => h.count_ne_zero (UInt64.toNat_inj.mp hzero)

theorem length_allCpus (a : CpuAllocator) : a.allCpus.length = a.cpuCount.toNat := by
  rw [allCpus, List.length_map, List.length_range]

theorem HasCpus.cpusFor_ne_nil (h : a.HasCpus) (locality : Locality) :
    a.cpusFor locality ≠ [] := by
  cases locality with
  | any => exact h.allCpus_ne_nil
  | node n =>
      rw [cpusFor]
      split
      · exact h.allCpus_ne_nil
      · assumption

theorem HasCpus.length_cpusFor_lt (h : a.HasCpus) (locality : Locality) :
    (a.cpusFor locality).length < UInt64.size := by
  have hall : a.allCpus.length < UInt64.size := a.length_allCpus ▸ a.cpuCount.toNat_lt
  cases locality with
  | any => exact hall
  | node n =>
      rw [cpusFor]
      split
      · exact hall
      · rename_i hown
        rw [Array.getD_eq_getD_getElem?] at hown ⊢
        cases hnode : a.nodes[n.toNat]? with
        | none => rw [hnode] at hown; exact absurd rfl hown
        | some cpus => exact h.size_lt cpus (Array.mem_of_getElem? hnode)

/-- The request that moves the counter on gets the CPU at the place where it stood, going round. -/
theorem HasCpus.allot_cpu (h : a.HasCpus) (locality : Locality) :
    (a.allot locality).1 =
      (a.cpusFor locality)[a.next.toNat % (a.cpusFor locality).length]? := by
  have hentries := a.entries_pool locality
  rw [allot, CpuPool.pick?_eq (hentries ▸ h.cpusFor_ne_nil locality)
    (hentries ▸ h.length_cpusFor_lt locality), hentries]

end CpuAllocator

/-! ### Requests from any threads -/

/-- A request for a CPU, as far as it has come. -/
inductive CpuRequest where
  | asked (locality : Locality)
  /-- The counter stood at `turn` and has been moved on. -/
  | drawn (locality : Locality) (turn : UInt64)
  | served (locality : Locality) (turn : UInt64) (cpu : Option UInt64)
  deriving DecidableEq, Repr

namespace CpuRequest

/-- The next step.  Allotting a CPU moves the counter on in one step, and everything else about it
needs no more than the value that the counter had. -/
def step : CpuAllocator → CpuRequest → CpuAllocator × CpuRequest
  | a, .asked locality => ((a.allot locality).2, .drawn locality a.next)
  | a, .drawn locality turn =>
    (a, .served locality turn (CpuAllocator.allot locality { a with next := turn }).1)
  | a, .served locality turn cpu => (a, .served locality turn cpu)

/-- The turn that the request has drawn. -/
def turn? : CpuRequest → Option UInt64
  | .asked _ => none
  | .drawn _ turn | .served _ turn _ => some turn

end CpuRequest

/-- An allocator with all requests made of it, in the order in which they were made. -/
structure CpuDesk where
  allocator : CpuAllocator
  requests : List CpuRequest
  deriving Repr

/-- One move in a schedule. -/
inductive CpuMove where
  /-- Some thread makes a request. -/
  | ask (locality : Locality)
  /-- The request of this number takes its next step. -/
  | step (request : Nat)
  deriving DecidableEq, Repr

namespace CpuDesk

/-- Nobody has asked for anything. -/
def opened (cpuCount : UInt64) (nodes : Array (Array UInt64)) : CpuDesk :=
  ⟨.create cpuCount nodes, []⟩

/-- Makes one move; one of a request that is not there changes nothing. -/
def act (d : CpuDesk) : CpuMove → CpuDesk
  | .ask locality => { d with requests := d.requests ++ [.asked locality] }
  | .step i =>
    match d.requests[i]? with
    | none => d
    | some request =>
      let (allocator, request) := request.step d.allocator
      ⟨allocator, d.requests.set i request⟩

/-- Follows a schedule. -/
def run (d : CpuDesk) (schedule : List CpuMove) : CpuDesk := schedule.foldl act d

/-- The turns that have been drawn, in the order of the requests. -/
def turns (d : CpuDesk) : List Nat := (d.requests.filterMap CpuRequest.turn?).map UInt64.toNat

variable {a : CpuAllocator} {d : CpuDesk}

theorem length_act (d : CpuDesk) (move : CpuMove) :
    d.requests.length ≤ (d.act move).requests.length := by
  cases move with
  | ask locality =>
      rw [act, List.length_append]
      exact Nat.le_add_right _ _
  | step i =>
      rw [act]
      split
      · exact Nat.le_refl _
      · exact Nat.le_of_eq List.length_set.symm

/-- Replacing one request by one that holds a turn more, or the same, does so to the turns. -/
theorem filterMap_turn?_set {requests : List CpuRequest} {i : Nat} {r : CpuRequest}
    (h : requests[i]? = some r) (r' : CpuRequest) :
    (r'.turn? = r.turn? → (requests.set i r').filterMap CpuRequest.turn? =
        requests.filterMap CpuRequest.turn?) ∧
      ∀ turn, r.turn? = none → r'.turn? = some turn →
        ((requests.set i r').filterMap CpuRequest.turn?).Perm
          (turn :: requests.filterMap CpuRequest.turn?) := by
  obtain ⟨hi, rfl⟩ := List.getElem?_eq_some_iff.mp h
  obtain ⟨before, behind, hsplit, -, hset⟩ := @List.exists_of_set _ i r' _ hi
  rw [hset]
  generalize requests[i] = r at hsplit ⊢
  subst hsplit
  refine ⟨fun hsame => ?_, fun turn hnone hturn => ?_⟩
  · rw [List.filterMap_append, List.filterMap_append, List.filterMap_cons, List.filterMap_cons,
      hsame]
  · rw [List.filterMap_append, List.filterMap_append, List.filterMap_cons_none hnone,
      List.filterMap_cons_some hturn]
    exact List.perm_middle

/-- The allocator is as it was but for its counter, which has given out all the turns below it; and
whoever has been served was given the CPU of the turn. -/
structure InTurn (a : CpuAllocator) (d : CpuDesk) : Prop where
  allocator : d.allocator = { a with next := d.allocator.next }
  counted : d.allocator.next.toNat = d.turns.length
  turns : d.turns.Perm (List.range d.turns.length)
  served : ∀ locality turn cpu, .served locality turn cpu ∈ d.requests →
    cpu = (a.cpusFor locality)[turn.toNat % (a.cpusFor locality).length]?

theorem InTurn.opened (cpuCount : UInt64) (nodes : Array (Array UInt64)) :
    (CpuDesk.opened cpuCount nodes).InTurn (.create cpuCount nodes) where
  allocator := rfl
  counted := rfl
  turns := .refl _
  served := nofun

theorem InTurn.ask (h : d.InTurn a) (locality : Locality) : (d.act (.ask locality)).InTurn a := by
  have hturns : (d.act (.ask locality)).turns = d.turns := by
    rw [CpuDesk.turns, CpuDesk.act, List.filterMap_append, List.filterMap_cons_none rfl,
      List.filterMap_nil, List.append_nil, CpuDesk.turns]
  refine ⟨h.allocator, hturns ▸ h.counted, hturns ▸ h.turns, fun locality' turn cpu hmem => ?_⟩
  rcases List.mem_append.mp hmem with hmem | hmem
  · exact h.served locality' turn cpu hmem
  · cases List.mem_singleton.mp hmem

/-- A request draws the turn at which the counter stands. -/
theorem InTurn.draw (h : d.InTurn a) {i : Nat} {locality : Locality}
    (hi : d.requests[i]? = some (.asked locality)) (hlt : d.turns.length + 1 < UInt64.size) :
    InTurn a ⟨(d.allocator.allot locality).2,
      d.requests.set i (.drawn locality d.allocator.next)⟩ := by
  have hperm : (CpuDesk.turns ⟨(d.allocator.allot locality).2,
      d.requests.set i (.drawn locality d.allocator.next)⟩).Perm (d.turns.length :: d.turns) := by
    have hset := ((filterMap_turn?_set hi (.drawn locality d.allocator.next)).2 _ rfl rfl).map
      UInt64.toNat
    rwa [List.map_cons, h.counted] at hset
  have hlength := hperm.length_eq
  rw [List.length_cons] at hlength
  refine ⟨?_, ?_, ?_, fun locality' turn cpu hmem => ?_⟩
  · rw [h.allocator]
    rfl
  · rw [hlength, CpuAllocator.allot]
    dsimp only
    rw [UInt64.toNat_add, h.counted, UInt64.toNat_one, Nat.mod_eq_of_lt hlt]
  · rw [hlength, List.range_succ]
    exact hperm.trans ((h.turns.cons _).trans (List.perm_append_singleton _ _).symm)
  · rcases List.mem_or_eq_of_mem_set hmem with hmem | heq
    · exact h.served locality' turn cpu hmem
    · cases heq

/-- A request that has drawn a turn is served the CPU of the turn. -/
theorem InTurn.serve (h : d.InTurn a) (hcpus : a.HasCpus) {i : Nat} {locality : Locality}
    {turn : UInt64} (hi : d.requests[i]? = some (.drawn locality turn)) :
    InTurn a ⟨d.allocator, d.requests.set i (.served locality turn
      (CpuAllocator.allot locality { d.allocator with next := turn }).1)⟩ := by
  have hcpu := CpuAllocator.HasCpus.allot_cpu (a := { a with next := turn })
    ⟨hcpus.count_ne_zero, hcpus.size_lt⟩ locality
  rw [h.allocator]
  dsimp only
  generalize (CpuAllocator.allot locality { a with next := turn }).1 = cpu at hcpu ⊢
  have hturns : CpuDesk.turns ⟨{ a with next := d.allocator.next },
      d.requests.set i (.served locality turn cpu)⟩ = d.turns :=
    congrArg (List.map UInt64.toNat) ((filterMap_turn?_set hi (.served locality turn cpu)).1 rfl)
  refine ⟨rfl, hturns ▸ h.counted, hturns ▸ h.turns, fun locality' turn' cpu' hmem => ?_⟩
  rcases List.mem_or_eq_of_mem_set hmem with hmem | heq
  · exact h.served locality' turn' cpu' hmem
  · cases heq
    exact hcpu

theorem InTurn.act (h : d.InTurn a) (hcpus : a.HasCpus) (move : CpuMove)
    (hlt : (d.act move).requests.length < UInt64.size) : (d.act move).InTurn a := by
  cases move with
  | ask locality => exact h.ask locality
  | step i =>
      rw [CpuDesk.act] at hlt ⊢
      cases hi : d.requests[i]? with
      | none => exact h
      | some request =>
          rw [hi] at hlt
          cases request with
          | asked locality =>
              -- The one that draws next is among the requests and holds no turn yet.
              have hlength := ((filterMap_turn?_set hi
                (.drawn locality d.allocator.next)).2 _ rfl rfl).length_eq
              have hle := List.length_filterMap_le CpuRequest.turn?
                (d.requests.set i (.drawn locality d.allocator.next))
              rw [hlength, List.length_cons, ← List.length_map (f := UInt64.toNat)] at hle
              exact h.draw hi (hle.trans_lt hlt)
          | drawn locality turn => exact h.serve hcpus hi
          | served locality turn cpu =>
              have hset : d.requests.set i (.served locality turn cpu) = d.requests := by
                obtain ⟨hlt', heq⟩ := List.getElem?_eq_some_iff.mp hi
                rw [← heq, List.set_getElem_self]
              change InTurn a ⟨d.allocator, d.requests.set i (.served locality turn cpu)⟩
              rw [hset]
              exact h

theorem InTurn.run (schedule : List CpuMove) (h : d.InTurn a) (hcpus : a.HasCpus)
    (hlt : (d.run schedule).requests.length < UInt64.size) : (d.run schedule).InTurn a := by
  induction schedule using List.reverseRecOn with
  | nil => exact h
  | append_singleton schedule move ih =>
      rw [CpuDesk.run, List.foldl_append] at hlt ⊢
      exact (ih ((length_act _ move).trans_lt hlt)).act hcpus move hlt

/-! ### Turns in a row -/

/-- What the requests with the turns from `start` on have asked for and been served. -/
def ServedFrom (d : CpuDesk) (start : Nat) (given : List (Locality × Option UInt64)) : Prop :=
  ∀ j, ∀ g ∈ given[j]?, ∃ turn, turn.toNat = start + j ∧ .served g.1 turn g.2 ∈ d.requests

/-- As many turns in a row as there are CPUs to choose from go once round these. -/
theorem InTurn.rotate (h : d.InTurn a) {start : Nat} {given : List (Locality × Option UInt64)}
    (hgiven : d.ServedFrom start given) {cpus : List UInt64}
    (hcpus : ∀ g ∈ given, a.cpusFor g.1 = cpus) (hlength : given.length = cpus.length) :
    given.map Prod.snd = (cpus.rotate start).map some := by
  refine List.ext_getElem ?_ fun j hj hj' => ?_
  · rw [List.length_map, List.length_map, List.length_rotate, hlength]
  · rw [List.length_map] at hj
    obtain ⟨turn, hturn, hmem⟩ := hgiven j given[j] (List.getElem?_eq_getElem hj)
    have hserved := h.served _ _ _ hmem
    rw [hcpus _ (List.getElem_mem hj), hturn] at hserved
    rw [List.getElem_map, List.getElem_map, hserved, List.getElem_rotate, Nat.add_comm,
      List.getElem?_eq_getElem]

/-- **CPUs are given in turn.**  Whatever CPUs there are on whatever nodes, and whichever threads
make their requests and take their steps in whatever order, the requests that have drawn hold the
turns from zero on, each of them once; the request of turn `i` is served, and gets the CPU at place
`i`, going round, of those for its locality; and if as many turns in a row as there are such CPUs
go to requests for these same CPUs, each of the CPUs is given as often as it is listed. -/
theorem serves_in_turn {cpuCount : UInt64} {nodes : Array (Array UInt64)}
    (hcount : cpuCount ≠ 0) (hnodes : ∀ cpus ∈ nodes, cpus.size < UInt64.size)
    {schedule : List CpuMove}
    (hlt : ((opened cpuCount nodes).run schedule).requests.length < UInt64.size) :
    let a := CpuAllocator.create cpuCount nodes
    let d := (opened cpuCount nodes).run schedule
    d.turns.Perm (List.range d.turns.length) ∧
    (∀ locality turn cpu, .served locality turn cpu ∈ d.requests →
      cpu.isSome = true ∧
        cpu = (a.cpusFor locality)[turn.toNat % (a.cpusFor locality).length]?) ∧
    ∀ start given cpus, d.ServedFrom start given → (∀ g ∈ given, a.cpusFor g.1 = cpus) →
      given.length = cpus.length → (given.map Prod.snd).Perm (cpus.map some) := by
  intro a d
  have hcpus : a.HasCpus := ⟨hcount, hnodes⟩
  have h : d.InTurn a := InTurn.run schedule (.opened cpuCount nodes) hcpus hlt
  refine ⟨h.turns, fun locality turn cpu hmem => ?_, fun start given cpus hgiven hfor hlength => ?_⟩
  · have hserved := h.served locality turn cpu hmem
    refine ⟨?_, hserved⟩
    have hpos := List.length_pos_iff.mpr (hcpus.cpusFor_ne_nil locality)
    rw [hserved, List.getElem?_eq_getElem (Nat.mod_lt _ hpos)]
    rfl
  · rw [h.rotate hgiven hfor hlength]
    exact (List.rotate_perm cpus start).map some

/-- Five requests, three of them for a node of three CPUs, draw and are served crosswise. -/
def crossedRequests : List CpuMove :=
  [.ask .any, .ask (.node 2), .ask (.node 2), .ask (.node 7), .step 0, .step 2, .step 1,
    .ask (.node 2), .step 4, .step 1, .step 3, .step 4, .step 0, .step 2, .step 3]

theorem serves_in_turn_crossed :
    let d := (opened 5 #[#[0], #[], #[4, 3, 2]]).run crossedRequests
    d.requests = [.served .any 0 (some 0), .served (.node 2) 2 (some 2),
        .served (.node 2) 1 (some 3), .served (.node 7) 4 (some 4),
        .served (.node 2) 3 (some 4)] ∧
      [some 3, some 2, some 4].Perm (([4, 3, 2] : List UInt64).map some) := by
  intro d
  have hrequests : d.requests = [.served .any 0 (some 0), .served (.node 2) 2 (some 2),
      .served (.node 2) 1 (some 3), .served (.node 7) 4 (some 4),
      .served (.node 2) 3 (some 4)] := by decide
  have hturns : d.ServedFrom 1 [(.node 2, some 3), (.node 2, some 2), (.node 2, some 4)] := by
    intro j g hg
    rw [hrequests]
    match j with
    | 0 => cases hg; exact ⟨1, rfl, by decide⟩
    | 1 => cases hg; exact ⟨2, rfl, by decide⟩
    | 2 => cases hg; exact ⟨3, rfl, by decide⟩
    | j + 3 => cases hg
  exact ⟨hrequests, (@serves_in_turn 5 #[#[0], #[], #[4, 3, 2]] (by decide) (by decide)
    crossedRequests (by decide)).2.2 1 _ [4, 3, 2] hturns (by decide) rfl⟩

end CpuDesk

end BurstRing
