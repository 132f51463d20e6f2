import BurstRing.CommandTable

/-!
# Registrations, and what is left of those that fail

A registration fails because a path that it wants is taken.  Nothing that a table has is ever lost
or replaced (`CommandTable.handlers_registerAll`), but not every failed registration leaves the
table as it was: the commands on rings are entered one after the other, and the list of rings stays
when the path for the details is taken.  This is the only exception
(`CommandTable.failed_registration`).
-/

namespace BurstRing

/-- One registration. -/
inductive Registration where
  /-- The commands on the rings in a registry, below `root`. -/
  | rings (root : String) (rings : RegistryRef)
  | linkState (path : String) (links : LinkCountsRef)
  deriving DecidableEq, Repr

/-- The paths that a registration wants, in the order in which they are entered. -/
def Registration.paths : Registration → List String
  | .rings root _ => [root ++ "/list", root ++ "/info"]
  | .linkState path _ => [path]

namespace CommandTable

def register (t : CommandTable) : Registration → Except DiagnosticError Unit × CommandTable
  | .rings root rings => t.registerRings root rings
  | .linkState path links => t.registerLinkState path links

/-- The table after registrations one after another, some of which may fail. -/
def registerAll (t : CommandTable) (registrations : List Registration) : CommandTable :=
  registrations.foldl (fun t r => (t.register r).2) t

variable {t : CommandTable} {path : String} {handler : Handler} {rings : RegistryRef}

/-! ### Entries -/

theorem insert_taken (h : t.handlers.contains path = true) :
    t.insert path handler = (.error (.duplicateCommand path), t) :=
  if_pos h

theorem insert_free (h : t.handlers.contains path = false) :
    t.insert path handler = (.ok (), ⟨t.handlers.insert path handler⟩) :=
  if_neg (by rw [h]; nofun)

theorem registerRings_listTaken {root : String}
    (h : t.handlers.contains (root ++ "/list") = true) :
    t.registerRings root rings = (.error (.duplicateCommand (root ++ "/list")), t) := by
  rw [registerRings, insert_taken h]

theorem contains_info_insert (root : String) (handler : Handler) :
    (t.handlers.insert (root ++ "/list") handler).contains (root ++ "/info") =
      t.handlers.contains (root ++ "/info") := by
  have hne : compare (root ++ "/list") (root ++ "/info") ≠ .eq := by
    intro heq
    have hchars := congrArg String.toList (Std.LawfulEqCmp.eq_of_compare heq)
    simp at hchars
  simp [Std.TreeMap.contains_insert, hne]

theorem registerRings_infoTaken {root : String}
    (hlist : t.handlers.contains (root ++ "/list") = false)
    (hinfo : t.handlers.contains (root ++ "/info") = true) :
    t.registerRings root rings = (.error (.duplicateCommand (root ++ "/info")),
      ⟨t.handlers.insert (root ++ "/list") (.ringList rings)⟩) := by
  rw [registerRings, insert_free hlist]
  exact insert_taken ((contains_info_insert root _).trans hinfo)

theorem registerRings_free {root : String}
    (hlist : t.handlers.contains (root ++ "/list") = false)
    (hinfo : t.handlers.contains (root ++ "/info") = false) :
    t.registerRings root rings = (.ok (),
      ⟨(t.handlers.insert (root ++ "/list") (.ringList rings)).insert (root ++ "/info")
        (.ringInfo rings)⟩) := by
  rw [registerRings, insert_free hlist]
  exact insert_free (t := ⟨t.handlers.insert (root ++ "/list") (.ringList rings)⟩)
    ((contains_info_insert root _).trans hinfo)

/-! ### Nothing is lost -/

theorem handlers_insert (path : String) (handler : Handler) {other : String} {kept : Handler}
    (h : t.handlers[other]? = some kept) :
    (t.insert path handler).2.handlers[other]? = some kept := by
  cases hpath : t.handlers.contains path with
  | true => rwa [insert_taken hpath]
  | false =>
      rw [insert_free hpath, Std.TreeMap.getElem?_insert, if_neg]
      · exact h
      · intro heq
        rw [Std.LawfulEqCmp.eq_of_compare heq, Std.TreeMap.contains_eq_isSome_getElem?, h] at hpath
        cases hpath

/-- What a table has stays as it is, whether or not the registration succeeds. -/
theorem handlers_register (r : Registration) (h : t.handlers[path]? = some handler) :
    (t.register r).2.handlers[path]? = some handler := by
  cases r with
  | linkState other links => exact handlers_insert other (.linkState links) h
  | rings root rings =>
      have hlist := handlers_insert (root ++ "/list") (.ringList rings) h
      rw [register, registerRings]
      revert hlist
      rcases t.insert (root ++ "/list") (.ringList rings) with ⟨_ | _, t'⟩
      · exact id
      · exact handlers_insert (root ++ "/info") (.ringInfo rings)

theorem handlers_registerAll (registrations : List Registration) :
    ∀ {t : CommandTable}, t.handlers[path]? = some handler →
      (t.registerAll registrations).handlers[path]? = some handler := by
  induction registrations with
  | nil => intro t h; exact h
  | cons r registrations ih => intro t h; exact ih (handlers_register r h)

/-! ### Failures -/

/-- All the difference is that `path`, which was unknown, now gives the list of rings. -/
structure GainsList (path : String) (rings : RegistryRef) (t t' : CommandTable) : Prop where
  handlers_eq : t'.handlers = t.handlers.insert path (.ringList rings)
  before : ∀ watched param,
    t.call watched path param = .error (.diagnostic (.unknownCommand path))
  now : ∀ watched param,
    t'.call watched path param = .ok (.array ((watched.rings rings).list.map Json.ofString))
  others : ∀ watched other param, other ≠ path →
    t'.call watched other param = t.call watched other param

theorem gainsList (h : t.handlers.contains path = false) :
    GainsList path rings t ⟨t.handlers.insert path (.ringList rings)⟩ where
  handlers_eq := rfl
  before watched param := by
    rw [Std.TreeMap.contains_eq_isSome_getElem?, Option.isSome_eq_false_iff,
      Option.isNone_iff_eq_none] at h
    rw [call, h]
  now watched param := by
    rw [call, Std.TreeMap.getElem?_insert_self]
  others watched other param hne := by
    have heq : (t.handlers.insert path (.ringList rings))[other]? = t.handlers[other]? := by
      rw [Std.TreeMap.getElem?_insert, if_neg]
      exact fun heq => hne (Std.LawfulEqCmp.eq_of_compare heq).symm
    rw [call, call, heq]

theorem GainsList.ne {t' : CommandTable} (h : GainsList path rings t t') : t' ≠ t := by
  rintro rfl
  have hcall := h.now (.only .empty .empty) none
  rw [h.before] at hcall
  cases hcall

/-- The registration wants two paths, of which the second is taken and the first is not. -/
def IsHalfTaken (t : CommandTable) (r : Registration) : Prop :=
  ∃ root rings, r = .rings root rings ∧ t.handlers.contains (root ++ "/list") = false ∧
    t.handlers.contains (root ++ "/info") = true

/-- **What a failed registration leaves.**  A registration fails of a path that is taken, and then
the table is as it was, unless the path for the details of a ring is taken and the one for the list
of rings is not.  In that case the table has gained the list, and nothing else. -/
theorem failed_registration {r : Registration} {e : DiagnosticError}
    (h : (t.register r).1 = .error e) :
    (∃ path ∈ r.paths, e = .duplicateCommand path ∧ t.handlers.contains path = true) ∧
    ((t.register r).2 = t ↔ ¬ t.IsHalfTaken r) ∧
    ∀ root rings, r = .rings root rings → t.IsHalfTaken r →
      GainsList (root ++ "/list") rings t (t.register r).2 := by
  cases r with
  | linkState path links =>
      have hhalf : ¬ t.IsHalfTaken (.linkState path links) := by
        rintro ⟨root, rings, hroot, -⟩
        cases hroot
      rw [register, registerLinkState] at h ⊢
      cases hpath : t.handlers.contains path with
      | true =>
          rw [insert_taken hpath] at h ⊢
          exact ⟨⟨path, by simp [Registration.paths], (Except.error.inj h).symm, hpath⟩,
            iff_of_true rfl hhalf, nofun⟩
      | false => rw [insert_free hpath] at h; cases h
  | rings root rings =>
      rw [register] at h ⊢
      cases hlist : t.handlers.contains (root ++ "/list") with
      | true =>
          have hhalf : ¬ t.IsHalfTaken (.rings root rings) := by
            rintro ⟨_, _, ⟨⟩, hfree, -⟩
            rw [hlist] at hfree
            cases hfree
          rw [registerRings_listTaken hlist] at h ⊢
          exact ⟨⟨_, by simp [Registration.paths], (Except.error.inj h).symm, hlist⟩,
            iff_of_true rfl hhalf, fun _ _ _ htaken => absurd htaken hhalf⟩
      | false =>
          cases hinfo : t.handlers.contains (root ++ "/info") with
          | true =>
              have hgains : GainsList (root ++ "/list") rings t _ := gainsList hlist
              rw [registerRings_infoTaken hlist hinfo] at h ⊢
              refine ⟨⟨_, by simp [Registration.paths], (Except.error.inj h).symm, hinfo⟩, ?_, ?_⟩
              · exact iff_of_false hgains.ne fun hnot => hnot ⟨root, rings, rfl, hlist, hinfo⟩
              · rintro _ _ ⟨⟩ -
                exact hgains
          | false => rw [registerRings_free hlist hinfo] at h; cases h

/-- The link state stands where the details of rings would. -/
def linkAtInfo : CommandTable := empty.registerAll [.linkState "/p/info" ⟨0⟩]

theorem failed_registration_linkAtInfo :
    (linkAtInfo.register (.rings "/p" ⟨0⟩)).1 = .error (.duplicateCommand "/p/info") ∧
      linkAtInfo.IsHalfTaken (.rings "/p" ⟨0⟩) ∧
      (linkAtInfo.register (.rings "/p" ⟨0⟩)).2 ≠ linkAtInfo := by
  have hfails : (linkAtInfo.register (.rings "/p" ⟨0⟩)).1 =
      .error (.duplicateCommand "/p/info") := rfl
  have hhalf : linkAtInfo.IsHalfTaken (.rings "/p" ⟨0⟩) :=
    ⟨"/p", ⟨0⟩, rfl, by decide +kernel, by decide +kernel⟩
  exact ⟨hfails, hhalf, ((failed_registration hfails).2.2 "/p" ⟨0⟩ rfl hhalf).ne⟩

/-- So failed registrations are not all without effect: the list of commands may have grown. -/
theorem failed_registration_not_atomic :
    ¬ ∀ (before : List Registration) (r : Registration) (e : DiagnosticError),
      ((empty.registerAll before).register r).1 = .error e →
        ((empty.registerAll before).register r).2.commands = (empty.registerAll before).commands := by
  intro h
  have hsame :=
    h [.linkState "/p/info" ⟨0⟩] (.rings "/p" ⟨0⟩) (.duplicateCommand "/p/info") rfl
  exact absurd hsame (by decide +kernel)

end CommandTable

end BurstRing
