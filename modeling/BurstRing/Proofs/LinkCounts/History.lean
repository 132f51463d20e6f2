import BurstRing.LinkCounts

/-!
# Counters and the subscriptions behind them

Subscriptions are granted, used and released in any order, over any sources.  A `LinkHistory` keeps
beside the counters a list of what has happened to each subscription, and from that list alone one
can tell which subscriptions are alive (`LinkHistory.IsAlive`) and how many changes have been
recorded through each of them (`LinkHistory.changes`).

The counters say the same (`LinkHistory.Agrees`): the registered sources are those of the living
subscriptions, each under its own counter, and the counter of a subscription, alive or not, holds
the number of its changes.  A new counter is one that nobody has seen before, so what an old
subscription leaves behind is never touched again.  The main statement is
`LinkHistory.counted_by_subscription`.
-/

namespace BurstRing

/-- Something done with counters.  Reading a counter and asking about sources change nothing. -/
inductive LinkOp where
  | subscribe (source : SourceId)
  | record (s : Subscription) (event : LinkEvent)
  /-- By an explicit call or by dropping it. -/
  | release (s : Subscription)
  deriving DecidableEq, Repr

/-- What has happened to a subscription. -/
inductive LinkDeed where
  | granted (s : Subscription)
  | recorded (s : Subscription) (event : LinkEvent)
  | released (s : Subscription)
  deriving DecidableEq, Repr

/-- Counters, and everything that has happened to subscriptions, newest first. -/
structure LinkHistory where
  links : LinkCounts
  deeds : List LinkDeed

namespace LinkHistory

def start : LinkHistory := ⟨.empty, []⟩

/-- The subscription has been granted and not released. -/
def IsAlive (h : LinkHistory) (s : Subscription) : Prop :=
  .granted s ∈ h.deeds ∧ .released s ∉ h.deeds

instance (h : LinkHistory) (s : Subscription) : Decidable (h.IsAlive s) :=
  inferInstanceAs (Decidable (_ ∧ _))

/-- Changes of the link status that have been recorded through `s`. -/
def changes (h : LinkHistory) (s : Subscription) : Nat :=
  h.deeds.count (.recorded s .statusChange)

/-- Does one thing.  A subscription that is not alive is nobody's, so nothing is done with it. -/
def act (h : LinkHistory) : LinkOp → LinkHistory
  | .subscribe source =>
    match h.links.subscribe source with
    | (.ok s, links) => ⟨links, .granted s :: h.deeds⟩
    | (.error _, links) => { h with links }
  | .record s event =>
    if h.IsAlive s then ⟨h.links.record s event, .recorded s event :: h.deeds⟩ else h
  | .release s =>
    if h.IsAlive s then ⟨h.links.unsubscribe s, .released s :: h.deeds⟩ else h

/-- Does one thing after another. -/
def run (ops : List LinkOp) (h : LinkHistory) : LinkHistory := ops.foldl act h

/-! ### Agreement -/

/-- The counters say what has happened. -/
structure Agrees (h : LinkHistory) : Prop where
  granted_of_recorded : ∀ {s event}, .recorded s event ∈ h.deeds → .granted s ∈ h.deeds
  granted_of_released : ∀ {s}, .released s ∈ h.deeds → .granted s ∈ h.deeds
  counted : ∀ {s}, .granted s ∈ h.deeds →
    h.links.counts[s.counter.index]? = some (h.changes s).toUInt64
  eq_of_index : ∀ {s t}, .granted s ∈ h.deeds → .granted t ∈ h.deeds →
    s.counter.index = t.counter.index → s = t
  registered : ∀ {source counter},
    h.links.subscribed[source]? = some counter ↔ h.IsAlive ⟨source, counter⟩

theorem agrees_start : start.Agrees where
  granted_of_recorded := nofun
  granted_of_released := nofun
  counted := nofun
  eq_of_index := nofun
  registered := by simp [start, LinkCounts.empty, IsAlive]

theorem subscribe_of_free {c : LinkCounts} {source : SourceId}
    (hfree : c.subscribed[source]? = none) :
    c.subscribe source = (.ok ⟨source, ⟨c.counts.size⟩⟩,
      ⟨c.counts.push 0, c.subscribed.insert source ⟨c.counts.size⟩⟩) := by
  simp [LinkCounts.subscribe, LinkCounts.isSubscribed, Std.TreeMap.contains_eq_isSome_getElem?,
    hfree]

theorem subscribe_of_taken {c : LinkCounts} {source : SourceId} {counter : CounterRef}
    (htaken : c.subscribed[source]? = some counter) :
    c.subscribe source = (.error (.alreadySubscribed source), c) := by
  simp [LinkCounts.subscribe, LinkCounts.isSubscribed, Std.TreeMap.contains_eq_isSome_getElem?,
    htaken]

namespace Agrees

variable {h : LinkHistory} {s t : Subscription}

theorem index_lt (ha : h.Agrees) (hs : .granted s ∈ h.deeds) :
    s.counter.index < h.links.counts.size := by
  obtain ⟨hlt, -⟩ := Array.getElem?_eq_some_iff.mp (ha.counted hs)
  exact hlt

/-- The next counter belongs to no subscription yet. -/
theorem not_granted_next (ha : h.Agrees) (source : SourceId) :
    .granted ⟨source, ⟨h.links.counts.size⟩⟩ ∉ h.deeds :=
  fun hs => Nat.lt_irrefl _ (ha.index_lt hs)

theorem grant (ha : h.Agrees) {source : SourceId} (hfree : h.links.subscribed[source]? = none) :
    Agrees ⟨⟨h.links.counts.push 0, h.links.subscribed.insert source ⟨h.links.counts.size⟩⟩,
      .granted ⟨source, ⟨h.links.counts.size⟩⟩ :: h.deeds⟩ where
  granted_of_recorded := by
    intro s event hs
    simp only [List.mem_cons, reduceCtorEq, false_or] at hs
    exact List.mem_cons_of_mem _ (ha.granted_of_recorded hs)
  granted_of_released := by
    intro s hs
    simp only [List.mem_cons, reduceCtorEq, false_or] at hs
    exact List.mem_cons_of_mem _ (ha.granted_of_released hs)
  counted := by
    intro s hs
    rcases List.mem_cons.mp hs with heq | hs
    · cases heq
      -- Nothing has been recorded through a subscription that is only granted now.
      have hnone : .recorded ⟨source, ⟨h.links.counts.size⟩⟩ .statusChange ∉ h.deeds :=
        fun hmem => ha.not_granted_next source (ha.granted_of_recorded hmem)
      simp [changes, List.count_eq_zero.mpr hnone]
    · have hlt := ha.index_lt hs
      simpa [changes, Array.getElem?_push, Nat.ne_of_lt hlt] using ha.counted hs
  eq_of_index := by
    intro s t hs ht hindex
    rcases List.mem_cons.mp hs with heq | hs <;> rcases List.mem_cons.mp ht with heq' | ht
    · cases heq
      cases heq'
      rfl
    · cases heq
      exact absurd hindex (Nat.ne_of_gt (ha.index_lt ht))
    · cases heq'
      exact absurd hindex (Nat.ne_of_lt (ha.index_lt hs))
    · exact ha.eq_of_index hs ht hindex
  registered := by
    intro other counter
    have hold : .released ⟨source, ⟨h.links.counts.size⟩⟩ ∉ h.deeds :=
      fun hmem => ha.not_granted_next source (ha.granted_of_released hmem)
    rw [Std.TreeMap.getElem?_insert]
    by_cases hsource : source = other
    · subst hsource
      rw [if_pos Std.ReflCmp.compare_self]
      have hnone : ¬ h.IsAlive ⟨source, counter⟩ := fun halive => by
        rw [ha.registered.mpr halive] at hfree
        cases hfree
      simp only [IsAlive, List.mem_cons, LinkDeed.granted.injEq, Subscription.mk.injEq, true_and,
        reduceCtorEq, false_or, Option.some.injEq] at hnone ⊢
      constructor
      · rintro rfl
        exact ⟨.inl rfl, hold⟩
      · rintro ⟨rfl | hs, hr⟩
        · rfl
        · exact absurd ⟨hs, hr⟩ hnone
    · rw [if_neg fun heq => hsource (Std.LawfulEqCmp.eq_of_compare heq), ha.registered]
      simp [IsAlive, Ne.symm hsource]

theorem subscribe (ha : h.Agrees) (source : SourceId) : (h.act (.subscribe source)).Agrees := by
  cases hsource : h.links.subscribed[source]? with
  | none =>
      simp only [act, subscribe_of_free hsource]
      exact ha.grant hsource
  | some counter =>
      simp only [act, subscribe_of_taken hsource]
      exact ha

/-- Recording through one subscription leaves the counters of all others alone. -/
theorem record (ha : h.Agrees) (hs : h.IsAlive s) (event : LinkEvent) :
    Agrees ⟨h.links.record s event, .recorded s event :: h.deeds⟩ where
  granted_of_recorded := by
    intro t event' ht
    rcases List.mem_cons.mp ht with heq | ht
    · cases heq
      exact List.mem_cons_of_mem _ hs.1
    · exact List.mem_cons_of_mem _ (ha.granted_of_recorded ht)
  granted_of_released := by
    intro t ht
    simp only [List.mem_cons, reduceCtorEq, false_or] at ht
    exact List.mem_cons_of_mem _ (ha.granted_of_released ht)
  counted := by
    intro t ht
    simp only [List.mem_cons, reduceCtorEq, false_or] at ht
    have hcount := ha.counted ht
    cases event with
    | statusChange =>
        by_cases hst : s = t
        · subst hst
          simp [LinkCounts.record, changes, hcount, Array.getElem?_modify]
        · have hindex : s.counter.index ≠ t.counter.index :=
            fun heq => hst (ha.eq_of_index hs.1 ht heq)
          simpa [LinkCounts.record, changes, Array.getElem?_modify, hindex, hst] using hcount
    | reset => simpa [LinkCounts.record, changes] using hcount
    | removed => simpa [LinkCounts.record, changes] using hcount
  eq_of_index := by
    intro t u ht hu
    simp only [List.mem_cons, reduceCtorEq, false_or] at ht hu
    exact ha.eq_of_index ht hu
  registered := by
    intro source counter
    have hsame : (h.links.record s event).subscribed = h.links.subscribed := by
      cases event <;> rfl
    rw [hsame, ha.registered]
    simp [IsAlive]

/-- A release takes out what it has put in, and nothing else. -/
theorem release (ha : h.Agrees) (hs : h.IsAlive s) :
    Agrees ⟨h.links.unsubscribe s, .released s :: h.deeds⟩ := by
  have hunsubscribe : h.links.unsubscribe s =
      { h.links with subscribed := h.links.subscribed.erase s.source } :=
    if_pos (ha.registered.mpr hs)
  rw [hunsubscribe]
  exact {
    granted_of_recorded := by
      intro t event ht
      simp only [List.mem_cons, reduceCtorEq, false_or] at ht
      exact List.mem_cons_of_mem _ (ha.granted_of_recorded ht)
    granted_of_released := by
      intro t ht
      rcases List.mem_cons.mp ht with heq | ht
      · cases heq
        exact List.mem_cons_of_mem _ hs.1
      · exact List.mem_cons_of_mem _ (ha.granted_of_released ht)
    counted := by
      intro t ht
      simp only [List.mem_cons, reduceCtorEq, false_or] at ht
      simpa [changes] using ha.counted ht
    eq_of_index := by
      intro t u ht hu
      simp only [List.mem_cons, reduceCtorEq, false_or] at ht hu
      exact ha.eq_of_index ht hu
    registered := by
      intro source counter
      rw [Std.TreeMap.getElem?_erase]
      by_cases hsource : s.source = source
      · subst hsource
        rw [if_pos Std.ReflCmp.compare_self]
        -- Only `s` itself could still be alive under this source.
        refine iff_of_false nofun fun halive => ?_
        simp only [IsAlive, List.mem_cons, LinkDeed.released.injEq, reduceCtorEq, false_or,
          not_or] at halive
        have hother := ha.registered.mpr ⟨halive.1, halive.2.2⟩
        rw [ha.registered.mpr hs] at hother
        cases hother
        exact halive.2.1 rfl
      · rw [if_neg fun heq => hsource (Std.LawfulEqCmp.eq_of_compare heq), ha.registered]
        have hne : s ≠ ⟨source, counter⟩ := fun heq => hsource (congrArg Subscription.source heq)
        simp [IsAlive, hne.symm] }

theorem act (ha : h.Agrees) (op : LinkOp) : (h.act op).Agrees := by
  cases op with
  | subscribe source => exact ha.subscribe source
  | record s event =>
      rw [LinkHistory.act]
      split
      · rename_i hs
        exact ha.record hs event
      · exact ha
  | release s =>
      rw [LinkHistory.act]
      split
      · rename_i hs
        exact ha.release hs
      · exact ha

theorem run (ops : List LinkOp) : ∀ {h : LinkHistory}, h.Agrees → (h.run ops).Agrees := by
  induction ops with
  | nil => intro h ha; exact ha
  | cons op ops ih => intro h ha; exact ih (ha.act op)

/-! ### Answers -/

theorem subscribed_eq (ha : h.Agrees) (hs : h.IsAlive s) :
    h.links.subscribed[s.source]? = some s.counter :=
  ha.registered.mpr hs

theorem subscribed_eq_none (ha : h.Agrees) {source : SourceId}
    (hnone : ¬ ∃ s, h.IsAlive s ∧ s.source = source) : h.links.subscribed[source]? = none := by
  rw [Option.eq_none_iff_forall_not_mem]
  exact fun counter hmem => hnone ⟨_, ha.registered.mp hmem, rfl⟩

theorem eq_of_source (ha : h.Agrees) (hs : h.IsAlive s) (ht : h.IsAlive t)
    (heq : s.source = t.source) : s = t := by
  have hcounter := ha.subscribed_eq hs
  rw [heq, ha.subscribed_eq ht] at hcounter
  exact ha.eq_of_index hs.1 ht.1 (congrArg CounterRef.index (Option.some.inj hcounter)).symm

theorem count_eq (ha : h.Agrees) (hs : .granted s ∈ h.deeds) :
    h.links.count s.counter = (h.changes s).toUInt64 := by
  rw [LinkCounts.count, Array.getD_eq_getD_getElem?, ha.counted hs]
  rfl

theorem query_eq (ha : h.Agrees) (hs : h.IsAlive s) :
    h.links.query s.source = .ok ⟨true, (h.changes s).toUInt64⟩ := by
  simp only [LinkCounts.query, ha.subscribed_eq hs, ha.count_eq hs.1]

theorem query_eq_error (ha : h.Agrees) {source : SourceId}
    (hnone : ¬ ∃ s, h.IsAlive s ∧ s.source = source) :
    h.links.query source = .error (.notSubscribed source) := by
  simp only [LinkCounts.query, ha.subscribed_eq_none hnone]

theorem query_iff (ha : h.Agrees) {source : SourceId} {info : LinkInfo} :
    h.links.query source = .ok info ↔
      ∃ s, h.IsAlive s ∧ s.source = source ∧ info = ⟨true, (h.changes s).toUInt64⟩ := by
  constructor
  · intro hquery
    by_cases hsome : ∃ s, h.IsAlive s ∧ s.source = source
    · obtain ⟨s, hs, rfl⟩ := hsome
      rw [ha.query_eq hs] at hquery
      exact ⟨s, hs, rfl, (Except.ok.inj hquery).symm⟩
    · rw [ha.query_eq_error hsome] at hquery
      cases hquery
  · rintro ⟨s, hs, rfl, rfl⟩
    exact ha.query_eq hs

theorem isSubscribed_iff (ha : h.Agrees) {source : SourceId} :
    h.links.isSubscribed source = true ↔ ∃ s, h.IsAlive s ∧ s.source = source := by
  rw [LinkCounts.isSubscribed, Std.TreeMap.contains_eq_isSome_getElem?, Option.isSome_iff_exists]
  constructor
  · rintro ⟨counter, hcounter⟩
    exact ⟨_, ha.registered.mp hcounter, rfl⟩
  · rintro ⟨s, hs, rfl⟩
    exact ⟨s.counter, ha.subscribed_eq hs⟩

/-- Whoever is released, also for a second time, what is registered under another counter stays. -/
theorem query_unsubscribe (ha : h.Agrees) (hs : .granted s ∈ h.deeds) (ht : h.IsAlive t)
    (hne : s ≠ t) : (h.links.unsubscribe s).query t.source = h.links.query t.source := by
  rw [LinkCounts.unsubscribe]
  split
  · rename_i hmine
    have hsource : s.source ≠ t.source := by
      intro heq
      rw [heq, ha.subscribed_eq ht] at hmine
      exact hne (ha.eq_of_index ht.1 hs (congrArg CounterRef.index (Option.some.inj hmine))).symm
    simp only [LinkCounts.query, Std.TreeMap.getElem?_erase, Std.LawfulEqCmp.compare_eq_iff_eq,
      hsource, if_false, LinkCounts.count]
  · rfl

theorem query_unsubscribe_self (ha : h.Agrees) (hs : h.IsAlive s) :
    (h.links.unsubscribe s).query s.source = .error (.notSubscribed s.source) := by
  simp [LinkCounts.unsubscribe, LinkCounts.query, ha.subscribed_eq hs]

end Agrees

/-! ### After the release -/

theorem released_act {h : LinkHistory} {s : Subscription} (hs : .released s ∈ h.deeds)
    (op : LinkOp) : .released s ∈ (h.act op).deeds ∧ (h.act op).changes s = h.changes s := by
  have hdead : ¬ h.IsAlive s := fun halive => halive.2 hs
  cases op with
  | subscribe source =>
      rw [act]
      split <;> simp [changes, hs]
  | record t event =>
      rw [act]
      split
      · rename_i ht
        have hne : t ≠ s := fun heq => hdead (heq ▸ ht)
        simp [changes, hs, hne]
      · exact ⟨hs, rfl⟩
  | release t =>
      rw [act]
      split <;> simp [changes, hs]

/-- Nothing is recorded through a subscription that has been released. -/
theorem released_run (ops : List LinkOp) : ∀ {h : LinkHistory} {s : Subscription},
    .released s ∈ h.deeds →
      .released s ∈ (h.run ops).deeds ∧ (h.run ops).changes s = h.changes s := by
  induction ops with
  | nil => intro h s hs; exact ⟨hs, rfl⟩
  | cons op ops ih =>
      intro h s hs
      obtain ⟨hs', hsame⟩ := released_act hs op
      obtain ⟨hlast, hrest⟩ := ih hs'
      exact ⟨hlast, hrest.trans hsame⟩

/-! ### The main statement -/

/-- What the counters tell is what has happened. -/
structure Truthful (h : LinkHistory) : Prop where
  /-- The registered sources are those of the living subscriptions. -/
  registered : ∀ source,
    h.links.isSubscribed source = true ↔ ∃ s, h.IsAlive s ∧ s.source = source
  /-- A source has at most one living subscription. -/
  unique : ∀ s t, h.IsAlive s → h.IsAlive t → s.source = t.source → s = t
  /-- A second one is refused, and nothing changes. -/
  refused : ∀ source, (∃ s, h.IsAlive s ∧ s.source = source) →
    h.links.subscribe source = (.error (.alreadySubscribed source), h.links)
  /-- Otherwise there is one that has not been there before, with no changes. -/
  granted : ∀ source, (¬ ∃ s, h.IsAlive s ∧ s.source = source) →
    ∃ s links, h.links.subscribe source = (.ok s, links) ∧ s.source = source ∧
      .granted s ∉ h.deeds ∧ links.query source = .ok ⟨true, 0⟩
  /-- A query tells the changes that were recorded through the living subscription. -/
  queried : ∀ source info, h.links.query source = .ok info ↔
    ∃ s, h.IsAlive s ∧ s.source = source ∧ info = ⟨true, (h.changes s).toUInt64⟩
  missing : ∀ source, (¬ ∃ s, h.IsAlive s ∧ s.source = source) →
    h.links.query source = .error (.notSubscribed source)
  /-- A release ends the registration of the subscription released. -/
  ended : ∀ s, h.IsAlive s →
    (h.links.unsubscribe s).query s.source = .error (.notSubscribed s.source)
  /-- It does not touch that of another, whatever their sources, and even if it is the second. -/
  others : ∀ s t, .granted s ∈ h.deeds → h.IsAlive t → s ≠ t →
    (h.links.unsubscribe s).query t.source = h.links.query t.source
  /-- A counter tells the changes of its subscription, alive or not. -/
  counted : ∀ s, .granted s ∈ h.deeds → h.links.count s.counter = (h.changes s).toUInt64
  /-- Once that is released, the counter keeps its value for good. -/
  kept : ∀ s, .released s ∈ h.deeds → ∀ more,
    (h.run more).links.count s.counter = h.links.count s.counter
  ascending : h.links.sources.Pairwise fun a b => a.value < b.value
  listed : ∀ source, source ∈ h.links.sources ↔ ∃ info, h.links.query source = .ok info
  size_eq : h.links.size = h.links.sources.length
  isEmpty_iff : h.links.isEmpty = true ↔ h.links.sources = []

/-- **Counting by subscription.**  After any operations the counters tell what has happened. -/
theorem counted_by_subscription (ops : List LinkOp) : (start.run ops).Truthful := by
  have ha : (start.run ops).Agrees := agrees_start.run ops
  generalize start.run ops = h at ha
  exact {
    registered := fun _ => ha.isSubscribed_iff
    unique := fun _ _ hs ht heq => ha.eq_of_source hs ht heq
    refused := by
      rintro _ ⟨s, hs, rfl⟩
      exact subscribe_of_taken (ha.subscribed_eq hs)
    granted := by
      intro source hnone
      refine ⟨_, _, subscribe_of_free (ha.subscribed_eq_none hnone), rfl,
        ha.not_granted_next source, ?_⟩
      simp [LinkCounts.query, LinkCounts.count]
    queried := fun _ _ => ha.query_iff
    missing := fun _ hnone => ha.query_eq_error hnone
    ended := fun _ hs => ha.query_unsubscribe_self hs
    others := fun _ _ hs ht hne => ha.query_unsubscribe hs ht hne
    counted := fun _ hs => ha.count_eq hs
    kept := by
      intro s hs more
      obtain ⟨hlast, hsame⟩ := released_run more hs
      have ha' := ha.run more
      rw [ha'.count_eq (ha'.granted_of_released hlast), hsame,
        ha.count_eq (ha.granted_of_released hs)]
    ascending := Std.TreeMap.ordered_keys.imp SourceId.compare_lt.mp
    listed := by
      intro source
      rw [LinkCounts.sources, Std.TreeMap.mem_keys, ← Std.TreeMap.contains_iff_mem]
      refine ha.isSubscribed_iff.trans ⟨?_, ?_⟩
      · rintro ⟨s, hs, rfl⟩
        exact ⟨_, ha.query_eq hs⟩
      · rintro ⟨info, hinfo⟩
        obtain ⟨s, hs, hsource, -⟩ := ha.query_iff.mp hinfo
        exact ⟨s, hs, hsource⟩
    size_eq := Std.TreeMap.length_keys.symm
    isEmpty_iff := by
      rw [LinkCounts.isEmpty, ← Std.TreeMap.isEmpty_keys, List.isEmpty_iff]
      rfl }

/-- A source that is subscribed, counted, released and subscribed again, with the old counter still
at hand and the old subscription released once more. -/
example :
    let old : Subscription := ⟨⟨9⟩, ⟨0⟩⟩
    let new : Subscription := ⟨⟨9⟩, ⟨1⟩⟩
    let h := start.run [.subscribe ⟨9⟩, .record old .statusChange, .record old .reset,
      .subscribe ⟨9⟩, .release old, .subscribe ⟨9⟩, .record old .statusChange, .release old]
    (h.links.query ⟨9⟩).toOption = some ⟨true, 0⟩ ∧ h.links.count old.counter = 1 ∧ h.IsAlive new ∧
      (h.links.unsubscribe old).sources = [⟨9⟩] := by
  decide +kernel

end LinkHistory

end BurstRing
