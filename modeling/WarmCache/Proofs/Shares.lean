import WarmCache.Proofs.Invocations
import WarmCache.Proofs.Runs

/-!
# What belongs to one key

Every key has its entry, and if no two keys share a callback it has its sources. A refresh goes
through all keys in one loop, with one summary and one set of counters, but what it makes of the
share of one key depends on nothing but that share and the clock.

Results:
1. `Books.share_enterAll`: of all results that are settled, only those for the key bear on its
   share.
2. `Divided.share_refreshIn`: so a refresh comes down to the one callback under the key.
3. `Divided.invoked_refreshIn`: and only that callback is invoked of those that are the key's.
4. `Divided.refreshIn`: a refresh leaves the callbacks with their keys.
-/

namespace WarmCache

namespace Keyed

variable {α : Type}

theorem find?_replace_other (table : Keyed α) {key other : String} (value : α)
    (ne : other ≠ key) : (table.replace key value).find? other = table.find? other := by
  unfold replace
  split
  · exact find?_put_other table value ne
  · rfl

theorem find?_replace_self (table : Keyed α) (key : String) (value : α) :
    (table.replace key value).find? key = (table.find? key).map fun _ => value := by
  unfold replace contains
  cases found : table.find? key with
  | none => simp [found]
  | some old => simp [find?_put_self]

end Keyed

/-- What belongs to one key: its entry and its sources, and the lifetime of entries. -/
structure Share where
  policy : ExpiryPolicy
  entry : Option (Entry Int)
  sources : Nat → Option Source

namespace Share

/-- The share of a key when what its callback came to has been settled. -/
def settle (now : Instant) (p : Share) (f : Fetched) : Share where
  policy := p.policy
  entry :=
    match f.result with
    | .ok item => p.entry.map fun _ => ⟨item, p.policy.expiryFrom now, some f.callback⟩
    | .error _ => p.entry
  sources i :=
    if i = f.callback.source then (p.sources i).map (Source.spend f.used) else p.sources i

/-- The callback under the key. -/
def callback? (p : Share) : Option Callback := p.entry.bind Entry.refresh

/-- A callback stays under its key when what it came to is settled. -/
theorem callback?_settle {now : Instant} {p : Share} {f : Fetched}
    (stored : p.callback? = some f.callback) : (p.settle now f).callback? = p.callback? := by
  unfold callback? settle at *
  cases f.result with
  | error message => rfl
  | ok item =>
    rw [stored]
    cases entry : p.entry with
    | none =>
      rw [entry] at stored
      cases stored
    | some e => rfl

end Share

/-- The share of a key, where `owner` tells whose each source is. -/
def Books.share (owner : Nat → Option String) (key : String) (b : Books) : Share where
  policy := b.cache.policy
  entry := b.cache.entries.find? key
  sources i := if owner i = some key then b.sources[i]? else none

namespace Books

variable {owner : Nat → Option String} {key : String}

/-- What the callback of one key came to is settled in the share of this key only. -/
theorem share_enter (now : Instant) (b : Books) {f : Fetched}
    (owned : owner f.callback.source = some f.key) :
    (b.enter now f).share owner key =
      if f.key = key then (b.share owner key).settle now f else b.share owner key := by
  obtain ⟨k, callback, name, used, result⟩ := f
  have settled := b.cache.settle_eq now k callback result
  by_cases mine : k = key
  · subst mine
    rw [if_pos rfl]
    simp only [share, enter, settled, Share.settle, Share.mk.injEq, true_and]
    refine ⟨?_, funext fun i => ?_⟩
    · cases result with
      | error message => rfl
      | ok item => exact Keyed.find?_replace_self _ _ _
    · by_cases same : i = callback.source
      · subst same
        simp only [if_pos owned, List.getElem?_modify, if_true]
        rfl
      · rw [if_neg same, List.getElem?_modify_ne _ _ (Ne.symm same)]
  · rw [if_neg mine]
    simp only [share, enter, settled, Share.mk.injEq, true_and]
    refine ⟨?_, funext fun i => ?_⟩
    · cases result with
      | error message => rfl
      | ok item => exact Keyed.find?_replace_other _ _ (Ne.symm mine)
    · by_cases same : callback.source = i
      · subst same
        have others : owner callback.source ≠ some key := by
          rw [owned]
          exact fun eq => mine (Option.some.inj eq)
        rw [if_neg others, if_neg others]
      · rw [List.getElem?_modify_ne _ _ same]

theorem share_enterAll (now : Instant) (b : Books) {fs : List Fetched}
    (owned : ∀ f ∈ fs, owner f.callback.source = some f.key) :
    (b.enterAll now fs).share owner key =
      (fs.filter fun f => f.key == key).foldl (Share.settle now) (b.share owner key) := by
  induction fs generalizing b with
  | nil => rfl
  | cons f rest ih =>
    have one : (b.enter now f).share owner key =
        if f.key = key then (b.share owner key).settle now f else b.share owner key :=
      b.share_enter now (owned f List.mem_cons_self)
    refine (ih (b.enter now f) fun g hg => owned g (List.mem_cons_of_mem f hg)).trans ?_
    rw [one]
    by_cases mine : f.key = key
    · have first : (f.key == key) = true := beq_iff_eq.2 mine
      rw [if_pos mine, List.filter_cons, if_pos first]
      rfl
    · have first : ¬ (f.key == key) = true := fun eq => mine (beq_iff_eq.1 eq)
      rw [if_neg mine, List.filter_cons, if_neg first]

theorem limit_enterAll (now : Instant) (b : Books) (fs : List Fetched) :
    (b.enterAll now fs).cache.limit = b.cache.limit := by
  induction fs generalizing b with
  | nil => rfl
  | cons f rest ih =>
    refine (ih (b.enter now f)).trans ?_
    rw [enter, Cache.settle_eq]

end Books

/-! ## The pair of a key in a snapshot -/

theorem Cache.filter_refreshable {α : Type} {c : Cache α} (nodup : c.entries.keys.Nodup)
    (key : String) : (c.refreshable.filter fun pair => pair.1 == key) =
      ((c.entries.find? key).bind Entry.refresh).toList.map fun callback => (key, callback) := by
  unfold refreshable
  generalize c.entries = entries at nodup
  induction entries with
  | nil => rfl
  | cons head rest ih =>
    obtain ⟨k, e⟩ := head
    simp only [Keyed.keys, List.map_cons, List.nodup_cons] at nodup
    by_cases mine : k = key
    · subst mine
      have absent : Keyed.find? rest k = none := (Keyed.find?_eq_none_iff rest k).2 nodup.1
      have others := ih nodup.2
      rw [absent] at others
      simp only [Option.bind_none, Option.toList_none, List.map_nil] at others
      cases refresh : e.refresh with
      | none => simp [Keyed.find?, refresh, others]
      | some callback => simp [Keyed.find?, refresh, others]
    · have later := ih nodup.2
      cases refresh : e.refresh with
      | none => simpa [Keyed.find?, refresh, mine] using later
      | some callback => simpa [Keyed.find?, refresh, mine] using later

/-- In whatever order a snapshot is gone through, the pair of a key is one and the same. -/
theorem Cache.filter_order {α : Type} {c : Cache α} (nodup : c.entries.keys.Nodup)
    {order : List (String × Callback)} (perm : order.Perm c.refreshable) (key : String) :
    (order.filter fun pair => pair.1 == key) =
      ((c.entries.find? key).bind Entry.refresh).toList.map fun callback => (key, callback) := by
  have same := perm.filter fun pair => pair.1 == key
  rw [c.filter_refreshable nodup] at same
  cases refresh : (c.entries.find? key).bind Entry.refresh with
  | none =>
    rw [refresh] at same
    exact same.eq_nil
  | some callback =>
    rw [refresh] at same
    exact List.perm_singleton.1 same

namespace Session

/-- The share of a key in a session. -/
def share (owner : Nat → Option String) (key : String) (s : Session) : Share :=
  (s.books .empty).share owner key

theorem share_sources {owner : Nat → Option String} {key : String} {s : Session} {i : Nat}
    (owns : owner i = some key) : (s.share owner key).sources i = s.sources[i]? :=
  if_pos owns

theorem attemptsAt_eq {owner : Nat → Option String} {key : String} {s : Session} {i : Nat}
    (owns : owner i = some key) :
    s.attemptsAt i = ((s.share owner key).sources i).elim 0 Source.attempts := by
  rw [share_sources owns]
  rfl

theorem fetched_callback (s : Session) (pair : String × Callback) :
    (s.fetched pair).callback = pair.2 := by
  unfold fetched
  split <;> rfl

/-- The attempts that a refresh begins which goes through its snapshot in this order. -/
def invokedIn (s : Session) (order : List (String × Callback)) : List (Nat × Nat) :=
  (s.answer .snapshot).1.invoked
    (Work.refreshRest (Work.call Work.maxDepth) order .empty)

/-- Every callback in the cache keeps to itself and belongs to its key alone. The cache has no
limit, and time does not go on by itself. -/
structure Divided (owner : Nat → Option String) (s : Session) : Prop where
  regular : s.Regular
  unlimited : s.cache.limit = none
  plain : ∀ i key, owner i = some key →
    ∃ source, s.sources[i]? = some source ∧ source.isPlain = true
  owned : ∀ key callback, (s.cache.entries.find? key).bind Entry.refresh = some callback →
    owner callback.source = some key

namespace Divided

variable {owner : Nat → Option String} {s : Session} {order : List (String × Callback)}

theorem owned_of_mem (h : s.Divided owner) {pair : String × Callback}
    (member : pair ∈ s.cache.refreshable) : owner pair.2.source = some pair.1 := by
  obtain ⟨e, present, refresh⟩ := Cache.mem_refreshable.1 member
  refine h.owned pair.1 pair.2 ?_
  rw [(Keyed.find?_eq_some_iff h.regular.accounted.nodup_keys).2 present]
  exact refresh

theorem apart (h : s.Divided owner) : s.Apart := by
  constructor
  · have keys := h.regular.accounted.nodup_keys.sublist s.cache.keys_refreshable
    refine List.Nodup.of_map owner ?_
    have owners : (s.cache.refreshable.map fun pair => pair.2.source).map owner =
        (s.cache.refreshable.map Prod.fst).map some := by
      rw [List.map_map, List.map_map]
      exact List.map_congr_left fun pair member => h.owned_of_mem member
    rw [owners]
    exact keys.map (Option.some_injective String)
  · exact fun pair member => h.plain pair.2.source pair.1 (h.owned_of_mem member)

theorem answer_snapshot (h : s.Divided owner) : (s.answer .snapshot).1 = s := by
  show { s with clock := s.clock.tick } = s
  rw [h.regular.still]

/-- What a refresh makes of a session, as far as keys go. -/
theorem refreshed (h : s.Divided owner) (perm : order.Perm s.cache.refreshable) :
    (s.refreshIn order).1.cache = ((s.books .empty).enterAll s.now (order.map s.fetched)).cache ∧
      (s.refreshIn order).1.sources =
        ((s.books .empty).enterAll s.now (order.map s.fetched)).sources ∧
      (s.refreshIn order).1.muted = { s.muted with
        cache := (s.refreshIn order).1.cache, sources := (s.refreshIn order).1.sources } ∧
      ∃ told, (s.refreshIn order).2 = .ok told := by
  have fits := h.apart.fits perm
  rw [h.answer_snapshot] at fits
  have refreshed := refreshed_plain fits 999 .empty
  unfold Session.refreshIn
  rw [h.answer_snapshot]
  obtain ⟨told, result, like⟩ := refreshed.books
  have same := like.same h.regular.still
  refine ⟨congrArg Books.cache same, congrArg Books.sources same, ?_, told, result⟩
  have frame := refreshed.frame
  rw [refreshed.steady h.regular.still] at frame
  exact frame

theorem fetched_owned (h : s.Divided owner) (perm : order.Perm s.cache.refreshable) :
    ∀ f ∈ order.map s.fetched, owner f.callback.source = some f.key := by
  intro f hf
  obtain ⟨pair, member, rfl⟩ := List.mem_map.1 hf
  rw [s.fetched_callback, s.fetched_key]
  exact h.owned_of_mem (perm.mem_iff.1 member)

theorem numbered (h : s.Divided owner) (order : List (String × Callback)) (i : Nat) :
    Numbered i s (s.refreshIn order).1 (s.invokedIn order) := by
  have numbered := invoked_of_source
    (Work.refreshRest (Work.call Work.maxDepth) order .empty) (s.answer .snapshot).1 i
  unfold Session.refreshIn invokedIn
  rw [h.answer_snapshot] at numbered ⊢
  exact numbered

/-- Only what the callback under the key comes to bears on its share. -/
theorem share_refreshIn (h : s.Divided owner) (perm : order.Perm s.cache.refreshable)
    (key : String) :
    (s.share owner key).callback? = none ∧
        (s.refreshIn order).1.share owner key = s.share owner key ∨
      ∃ callback, (s.share owner key).callback? = some callback ∧
        (s.refreshIn order).1.share owner key =
          (s.share owner key).settle s.now (s.fetched (key, callback)) := by
  obtain ⟨cache, sources, _⟩ := h.refreshed perm
  have all : (s.refreshIn order).1.share owner key =
      ((s.books .empty).enterAll s.now (order.map s.fetched)).share owner key := by
    simp only [Session.share, Books.share, Session.books, cache, sources]
  have pairs : (order.filter fun pair => pair.1 == key) =
      (s.share owner key).callback?.toList.map fun callback => (key, callback) :=
    Cache.filter_order h.regular.accounted.nodup_keys perm key
  have mine : (order.map s.fetched).filter (fun f => f.key == key) =
      ((s.share owner key).callback?.toList.map fun callback => (key, callback)).map
        s.fetched := by
    rw [← pairs, List.filter_map]
    refine congrArg (List.map s.fetched) (List.filter_congr fun pair _ => ?_)
    rw [Function.comp_apply, s.fetched_key]
  rw [all, Books.share_enterAll _ _ (h.fetched_owned perm), mine]
  cases (s.share owner key).callback? with
  | none => exact .inl ⟨rfl, rfl⟩
  | some callback => exact .inr ⟨callback, rfl, rfl⟩

/-- A refresh leaves the callbacks with their keys. -/
theorem refreshIn (h : s.Divided owner) (perm : order.Perm s.cache.refreshable) :
    (s.refreshIn order).1.Divided owner where
  regular := h.regular.proceeds (goes_refreshIn h.apart perm).proceeds
  unlimited := by
    rw [(h.refreshed perm).1, Books.limit_enterAll]
    exact h.unlimited
  plain i key owns := by
    obtain ⟨source, found, plain⟩ := h.plain i key owns
    rw [← share_sources owns] at found ⊢
    rcases h.share_refreshIn perm key with ⟨_, same⟩ | ⟨callback, _, after⟩
    · rw [same]
      exact ⟨source, found, plain⟩
    · rw [after]
      simp only [Share.settle, found]
      split
      · exact ⟨_, rfl, plain⟩
      · exact ⟨source, rfl, plain⟩
  owned key callback stored := by
    refine h.owned key callback ?_
    change ((s.refreshIn order).1.share owner key).callback? = some callback at stored
    rcases h.share_refreshIn perm key with ⟨_, same⟩ | ⟨callback', before, after⟩
    · rw [same] at stored
      exact stored
    · rw [after, Share.callback?_settle] at stored
      · exact stored
      · rw [fetched_callback]
        exact before

/-! ## Invocations -/

/-- Of the callbacks that belong to a key, a refresh invokes the one that is stored under it. -/
theorem source_of_invoked (h : s.Divided owner) (perm : order.Perm s.cache.refreshable)
    {key : String} {x : Nat × Nat} (member : x ∈ s.invokedIn order)
    (owns : owner x.1 = some key) :
    ∃ callback, (s.share owner key).callback? = some callback ∧ x.1 = callback.source := by
  by_contra none
  -- the source has seen no attempt in between, so none of them was against it
  have same : ((s.refreshIn order).1.share owner key).sources x.1 =
      (s.share owner key).sources x.1 := by
    rcases h.share_refreshIn perm key with ⟨_, same⟩ | ⟨callback, before, after⟩
    · rw [same]
    · rw [after]
      refine if_neg fun eq => none ⟨callback, before, ?_⟩
      rw [eq, fetched_callback]
  obtain ⟨used, attempts, numbers⟩ := h.numbered order x.1
  rw [attemptsAt_eq owns, attemptsAt_eq owns, same] at attempts
  obtain rfl : used = 0 := by omega
  have inside : x ∈ (s.invokedIn order).filter fun y => y.1 == x.1 :=
    List.mem_filter.2 ⟨member, beq_self_eq_true x.1⟩
  rw [numbers] at inside
  cases inside

end Divided

end Session

end WarmCache
