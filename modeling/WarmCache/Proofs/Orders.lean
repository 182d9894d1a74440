import WarmCache.Proofs.Attempts
import WarmCache.Proofs.Notes
import WarmCache.Proofs.Underway

/-!
# Refreshes in any order

The order in which a snapshot lists the entries is nobody's business. Here every refresh goes
through its snapshot in an order of its own.

Results:
1. `goes_finish`, `goes_advance`: the order of the table is one of them.
2. `refresh_orders`: a refresh of callbacks that keep to themselves comes to the same in any two.
3. `Command.orderless`: so does any command, as long as all refreshes in it are such.
-/

namespace WarmCache

namespace Session

/-- Work begun in session `s` has come to session `t`, where it has its result or was put aside.
Each refresh that it began went through its snapshot in some order; `snaps` are the sessions in
which the snapshots were taken. Gates only count if `waits` holds. -/
inductive Goes {α : Type} (waits : Bool) :
    Work α → Session → List Session → Session → Progress α → Prop
  | done {a : α} {s : Session} : Goes waits (.done a) s [] s (.finished a)
  | asks {q : Request} {next : Reply q → Work α} {s t : Session} {snaps : List Session}
      {p : Progress α} : q ≠ .snapshot → Goes waits (next (s.answer q).2) (s.answer q).1 snaps t p →
      Goes waits (.ask q next) s snaps t p
  | takes {next : Reply .snapshot → Work α} {s t : Session} {snaps : List Session}
      {p : Progress α} (order : List (String × Callback)) : order.Perm s.cache.refreshable →
      Goes waits (next order) (s.answer .snapshot).1 snaps t p →
      Goes waits (.ask .snapshot next) s (s :: snaps) t p
  | passes {gate : String} {rest : Work α} {s t : Session} {snaps : List Session}
      {p : Progress α} : (waits = true → gate ∈ s.background.openGates) →
      Goes waits rest s snaps t p → Goes waits (.gate gate rest) s snaps t p
  | stops {gate : String} {rest : Work α} {s : Session} :
      waits = true → gate ∉ s.background.openGates →
      Goes waits (.gate gate rest) s [] s (.waiting gate rest)

section Goes

variable {α β : Type} {waits : Bool} {s t : Session} {snaps : List Session}

/-- The order of the table is one of the orders. -/
theorem goes_finish (w : Work α) (s : Session) :
    ∃ snaps, Goes false w s snaps (s.finish w).1 (.finished (s.finish w).2) := by
  induction w generalizing s with
  | done a => exact ⟨[], .done⟩
  | ask q next ih =>
    obtain ⟨snaps, goes⟩ := ih (s.answer q).2 (s.answer q).1
    by_cases snapshot : q = .snapshot
    · subst snapshot
      exact ⟨s :: snaps, .takes _ (.refl _) goes⟩
    · exact ⟨snaps, .asks snapshot goes⟩
  | gate name rest ih =>
    obtain ⟨snaps, goes⟩ := ih s
    exact ⟨snaps, .passes (fun waits => Bool.noConfusion waits) goes⟩

theorem goes_advance (w : Work α) (s : Session) :
    ∃ snaps, Goes true w s snaps (s.advance w).1 (s.advance w).2 := by
  induction w generalizing s with
  | done a => exact ⟨[], .done⟩
  | ask q next ih =>
    obtain ⟨snaps, goes⟩ := ih (s.answer q).2 (s.answer q).1
    by_cases snapshot : q = .snapshot
    · subst snapshot
      exact ⟨s :: snaps, .takes _ (.refl _) goes⟩
    · exact ⟨snaps, .asks snapshot goes⟩
  | gate name rest ih =>
    unfold advance
    split
    · next opened =>
      obtain ⟨snaps, goes⟩ := ih s
      exact ⟨snaps, .passes (fun _ => List.contains_iff_mem.1 opened) goes⟩
    · next closed =>
      exact ⟨[], .stops rfl fun opened => closed (List.contains_iff_mem.2 opened)⟩

theorem Goes.proceeds {w : Work α} {p : Progress α} (h : Goes waits w s snaps t p) :
    Proceeds s t := by
  induction h with
  | done => exact .refl
  | asks _ _ ih => exact (atOnce_answer _ _).proceeds.trans ih
  | takes _ _ _ ih => exact (atOnce_answer _ _).proceeds.trans ih
  | passes _ _ ih => exact ih
  | stops => exact .refl

/-- Work that asks for no snapshot goes as it does. -/
theorem Goes.of_direct {w : Work α} {p : Progress α} (h : Goes waits w s snaps t p)
    (direct : Direct w s) :
    snaps = [] ∧ t = (s.finish w).1 ∧ p = .finished (s.finish w).2 := by
  induction h with
  | done => exact ⟨rfl, rfl, rfl⟩
  | asks _ _ ih => exact ih direct.2
  | takes => exact absurd rfl direct.1
  | passes => exact direct.elim
  | stops => exact direct.elim

theorem goes_bind {w : Work α} {f : α → Work β} {b : β}
    (h : Goes false (w.bind f) s snaps t (.finished b)) :
    ∃ first more u a, snaps = first ++ more ∧ Goes false w s first u (.finished a) ∧
      Goes false (f a) u more t (.finished b) := by
  -- on the first part; the orders that it chooses come before those of the second
  induction w generalizing s snaps with
  | done a => exact ⟨[], snaps, s, a, rfl, .done, h⟩
  | ask q next ih =>
    cases h with
    | asks other goes =>
      obtain ⟨first, more, u, a, rfl, one, two⟩ := ih _ goes
      exact ⟨first, more, u, a, rfl, .asks other one, two⟩
    | takes order perm goes =>
      obtain ⟨first, more, u, a, rfl, one, two⟩ := ih _ goes
      exact ⟨s :: first, more, u, a, rfl, .takes order perm one, two⟩
  | gate name rest ih =>
    cases h with
    | passes opened goes =>
      obtain ⟨first, more, u, a, rfl, one, two⟩ := ih goes
      exact ⟨first, more, u, a, rfl, .passes opened one, two⟩

end Goes

/-! ## One refresh in two orders -/

/-- A session without the reading of its clock and without the expiry of its entries. -/
def timeless (s : Session) : Session :=
  { s.muted with cache := s.cache.timeless, clock := .running .latest }

/-- The same refresh is over in two sessions. If the clock stood still, they are alike. -/
structure SameRefresh (still : Prop) (s t : Session) : Prop where
  timeless : s.timeless = t.timeless
  calls : ∀ name, s.timesCalled name = t.timesCalled name
  alike : still → Alike s t

theorem fetched_key (s : Session) (pair : String × Callback) : (s.fetched pair).key = pair.1 := by
  unfold fetched
  split <;> rfl

theorem Refreshed.same {s s' : Session} {order order' : List (String × Callback)}
    {summary : Summary} {w w' : Work (Except String Summary)} (h : Refreshed s order summary w)
    (h' : Refreshed s' order' summary w') (alike : Alike s s') (perm : order.Perm order')
    (keys : (order.map Prod.fst).Nodup) :
    ∃ told, (s.finish w).2 = .ok told ∧ (s'.finish w').2 = .ok told ∧
      SameRefresh (s.clock.tick = s.clock) (s.finish w).1 (s'.finish w').1 := by
  obtain ⟨told, result, like⟩ := h.books
  obtain ⟨told', result', like'⟩ := h'.books
  have muted := alike.muted
  have clock : s.clock = s'.clock := by
    have same := congrArg Session.clock muted
    exact same
  have now : s.now = s'.now := by
    have same := congrArg Session.now muted
    exact same
  have cache : s.cache = s'.cache := by
    have same := congrArg Session.cache muted
    exact same
  have fetches : order'.map s'.fetched = order'.map s.fetched := by
    refine List.map_congr_left fun pair _ => fetched_congr ?_
    rw [alike.sources]
  have apart : ((order.map s.fetched).map Fetched.key).Nodup := by
    rw [List.map_map]
    exact (List.map_congr_left fun pair _ => (s.fetched_key pair).symm) ▸ keys
  have begun : s'.books summary = s.books summary := by
    rw [Session.books, Session.books, cache, alike.sources, funext alike.calls]
  rw [begun, fetches, ← now, ← clock,
    ← Books.enterAll_perm s.now (s.books summary) (perm.map s.fetched) apart] at like'
  have both := like.trans like'.symm
  have fields := both.timeless
  rw [Books.mk.injEq] at fields
  obtain ⟨entries, sources, calls, rfl⟩ := fields
  have frame := h.frame
  have frame' := h'.frame
  rw [← muted] at frame'
  refine ⟨told, result, result', ?_, fun name => congrFun calls name, fun still => ⟨?_, ?_⟩⟩
  · rw [Session.timeless, Session.timeless, frame, frame']
    exact congrArg₂ (fun cache sources =>
      { s.muted with cache, sources, clock := .running .latest }) entries sources
  · have exactly := both.same still
    have one := h.steady still
    have two := h'.steady (by rw [← clock]; exact still)
    rw [frame, frame', one, two, ← clock]
    exact congrArg₂ (fun cache sources => { s.muted with cache, sources, clock := s.clock })
      (congrArg Books.cache exactly) sources
  · exact fun name => congrFun calls name

/-- All callbacks that a refresh would call now keep to themselves, and no two of them share a
source. -/
def Apart (s : Session) : Prop := s.Fits s.cache.refreshable

theorem Apart.fits {s : Session} (h : s.Apart) {order : List (String × Callback)}
    (perm : order.Perm s.cache.refreshable) : (s.answer .snapshot).1.Fits order where
  apart := (perm.map _).nodup_iff.2 h.apart
  plain pair member := h.plain pair (perm.mem_iff.1 member)

theorem Apart.alike {s t : Session} (h : s.Apart) (alike : Alike s t) : t.Apart := by
  have cache : s.cache = t.cache := by
    have same := congrArg Session.cache alike.muted
    exact same
  unfold Apart
  rw [← cache]
  exact ⟨h.apart, alike.sources ▸ h.plain⟩

/-- The orders in which two refreshes go through their snapshots do not matter. -/
theorem refresh_orders {s s' : Session} {order order' : List (String × Callback)}
    (alike : Alike s s') (keys : s.cache.entries.keys.Nodup) (apart : s.Apart)
    (perm : order.Perm s.cache.refreshable) (perm' : order'.Perm s'.cache.refreshable)
    (depth : Nat) :
    let w := Work.refreshRest (Work.call (depth + 1)) order .empty
    let w' := Work.refreshRest (Work.call (depth + 1)) order' .empty
    Direct w (s.answer .snapshot).1 ∧ Direct w' (s'.answer .snapshot).1 ∧
      ∃ told, ((s.answer .snapshot).1.finish w).2 = .ok told ∧
        ((s'.answer .snapshot).1.finish w').2 = .ok told ∧
        SameRefresh (s.clock.tick = s.clock) ((s.answer .snapshot).1.finish w).1
          ((s'.answer .snapshot).1.finish w').1 := by
  intro w w'
  have refreshed := refreshed_plain (apart.fits perm) depth .empty
  have refreshed' := refreshed_plain ((apart.alike alike).fits perm') depth .empty
  have refreshable : s.cache.refreshable = s'.cache.refreshable :=
    alike.reply (q := .snapshot) nofun
  have nodup : (order.map Prod.fst).Nodup := by
    rw [(perm.map Prod.fst).nodup_iff]
    exact keys.sublist s.cache.keys_refreshable
  rw [← refreshable] at perm'
  obtain ⟨told, result, result', same⟩ :=
    refreshed.same refreshed' (alike.answer .snapshot) (perm.trans perm'.symm) nodup
  refine ⟨refreshed.direct, refreshed'.direct, told, result, result', same.timeless, same.calls,
    fun still => same.alike ?_⟩
  show s.clock.tick.tick = s.clock.tick
  rw [still, still]

/-- Whatever orders two refreshes choose, they come to the same. -/
theorem refresh_any_order {s s' t t' : Session} {snaps snaps' : List Session} {depth : Nat}
    {waits waits' : Bool} {p p' : Progress (Except String Summary)} (alike : Alike s s')
    (keys : s.cache.entries.keys.Nodup) (apart : s.Apart)
    (goes : Goes waits (Work.refresh (Work.call (depth + 1))) s snaps t p)
    (goes' : Goes waits' (Work.refresh (Work.call (depth + 1))) s' snaps' t' p') :
    ∃ told, p = .finished (.ok told) ∧ p' = .finished (.ok told) ∧
      SameRefresh (s.clock.tick = s.clock) t t' := by
  cases goes with
  | asks other => exact absurd rfl other
  | takes order perm goes =>
    cases goes' with
    | asks other => exact absurd rfl other
    | takes order' perm' goes' =>
      obtain ⟨direct, direct', told, result, result', same⟩ :=
        refresh_orders alike keys apart perm perm' depth
      obtain ⟨_, rfl, rfl⟩ := goes.of_direct direct
      obtain ⟨_, rfl, rfl⟩ := goes'.of_direct direct'
      exact ⟨told, congrArg _ result, congrArg _ result', same⟩

/-- Beyond the greatest depth every callback panics at once, whichever is called first. -/
theorem refresh_too_deep {s t : Session} {snaps : List Session} {result : Except String Summary}
    (goes : Goes false (Work.refresh (Work.call 0)) s snaps t (.finished result)) :
    t = (s.answer .snapshot).1 ∧ result =
      if s.cache.refreshable = [] then .ok .empty
      else .error "callbacks are nested too deeply" := by
  cases goes with
  | asks other => exact absurd rfl other
  | takes order perm goes =>
    cases order with
    | nil =>
      obtain ⟨_, rfl, same⟩ := goes.of_direct trivial
      rw [if_pos perm.nil_eq.symm]
      exact ⟨rfl, Progress.finished.inj same⟩
    | cons pair rest =>
      obtain ⟨_, rfl, same⟩ := goes.of_direct trivial
      rw [if_neg fun none => ?_]
      · exact ⟨rfl, Progress.finished.inj same⟩
      · rw [none] at perm
        exact List.cons_ne_nil _ _ perm.eq_nil

end Session

/-! ## Commands -/

/-- Two answers differ at most in what they tell of the notes: the same callbacks were called as
often, and the notes and reports may be others. -/
inductive Answer.Alike : Answer → Answer → Prop
  | same (a : Answer) : Alike a a
  | calls {counts counts' : Keyed Nat} :
      (∀ name, (counts.find? name).getD 0 = (counts'.find? name).getD 0) →
      Alike (.calls counts) (.calls counts')
  | trace (records records' : List TraceRecord) : Alike (.trace records) (.trace records')
  | logs (events events' : List Event) : Alike (.logs events) (.logs events')
  | batch {answers answers' : List Answer} : List.Forall₂ Alike answers answers' →
      Alike (.batch answers) (.batch answers')

namespace Session

/-- Time does not go on by itself, and the cache is in order. -/
structure Regular (s : Session) : Prop where
  still : s.clock.tick = s.clock
  accounted : s.cache.Accounted

theorem Regular.proceeds {s t : Session} (h : s.Regular) (proceeds : Proceeds s t) :
    t.Regular := by
  refine ⟨proceeds.steady h.still, ?_⟩
  induction proceeds with
  | refl => exact h.accounted
  | tail _ step ih =>
    obtain ⟨ops, taken, eq⟩ := step.1.cache
    rw [eq]
    exact (ih.applyAll ops).claim taken

end Session

namespace Work

open Session

/-- Work `w` that begins in a session and work `w'` that begins in one alike end in sessions that
are alike, with results that are related by `R`, whatever orders their refreshes choose. This is
so as long as all refreshes of the former find callbacks that keep to themselves. -/
def Orderless {α β : Type} (R : α → β → Prop) (w : Work α) (w' : Work β) : Prop :=
  ∀ ⦃s s' t t' : Session⦄ ⦃snaps snaps' : List Session⦄ ⦃a : α⦄ ⦃b : β⦄,
    s.Regular → Session.Alike s s' → Goes false w s snaps t (.finished a) →
    (∀ u ∈ snaps, u.Apart) → Goes false w' s' snaps' t' (.finished b) →
    Session.Alike t t' ∧ R a b

namespace Orderless

variable {α β γ δ : Type} {R : α → β → Prop} {Q : γ → δ → Prop} {w : Work α} {w' : Work β}

theorem done {a : α} {b : β} (h : R a b) : Orderless R (Work.done a) (Work.done b) := by
  intro s s' t t' snaps snaps' a b regular alike goes apart goes'
  cases goes with
  | done =>
    cases goes' with
    | done => exact ⟨alike, h⟩

theorem bind (h : Orderless R w w') {f : α → Work γ} {f' : β → Work δ}
    (next : ∀ a b, R a b → Orderless Q (f a) (f' b)) : Orderless Q (w.bind f) (w'.bind f') := by
  intro s s' t t' snaps snaps' c d regular alike goes apart goes'
  obtain ⟨first, more, u, a, rfl, one, two⟩ := goes_bind goes
  obtain ⟨first', more', u', b, rfl, one', two'⟩ := goes_bind goes'
  obtain ⟨same, related⟩ :=
    h regular alike one (fun v member => apart v (List.mem_append_left _ member)) one'
  exact next a b related (regular.proceeds one.proceeds) same two
    (fun v member => apart v (List.mem_append_right _ member)) two'

/-- A request that leaves alike sessions alike, and whose replies are related. -/
theorem request (q q' : Request) {R : Reply q → Reply q' → Prop} (other : q ≠ .snapshot)
    (other' : q' ≠ .snapshot)
    (alike : ∀ s s', Session.Alike s s' → Session.Alike (s.answer q).1 (s'.answer q').1)
    (replies : ∀ s s', Session.Alike s s' → R (s.answer q).2 (s'.answer q').2) :
    Orderless R (Work.request q) (Work.request q') := by
  intro s s' t t' snaps snaps' a b regular same goes apart goes'
  cases goes with
  | takes => exact absurd rfl other
  | asks _ goes =>
    cases goes' with
    | takes => exact absurd rfl other'
    | asks _ goes' =>
      cases goes with
      | done =>
        cases goes' with
        | done => exact ⟨alike s s' same, replies s s' same⟩

/-- A request whose reply is the same in alike sessions. -/
theorem steering {q : Request} (other : q ≠ .snapshot)
    (steers : ∀ note, q ≠ .act (.note note)) :
    Orderless Eq (Work.request q) (Work.request q) :=
  request q q other other (fun _ _ h => h.answer q) fun _ _ h => h.reply steers

theorem record (note note' : TraceRecord) :
    Orderless Eq (Work.request (.record note)) (Work.request (.record note')) :=
  request (.record note) (.record note') nofun nofun (fun _ _ h => h.record note note')
    fun _ _ _ => rfl

theorem action (action : Action) :
    Orderless Answer.Alike (Work.request (.act action)) (Work.request (.act action)) := by
  refine request (.act action) (.act action) nofun nofun (fun _ _ h => h.answer _)
    fun s s' h => ?_
  by_cases note : ∃ note, action = .note note
  · obtain ⟨note, rfl⟩ := note
    cases note with
    | calls => exact .calls h.calls
    | trace sorted => exact .trace _ _
    | logs sorted => exact .logs _ _
  · have same := h.reply (q := .act action) fun n eq => note ⟨n, Request.act.inj eq⟩
    show Answer.Alike (s.answer (.act action)).2 (s'.answer (.act action)).2
    rw [same]
    exact .same _

/-- A refresh comes to the same in any order. -/
theorem refresh (depth : Nat) :
    Orderless Eq (Work.refresh (Work.call depth)) (Work.refresh (Work.call depth)) := by
  intro s s' t t' snaps snaps' a b regular alike goes apart goes'
  cases depth with
  | zero =>
    obtain ⟨rfl, rfl⟩ := refresh_too_deep goes
    obtain ⟨rfl, rfl⟩ := refresh_too_deep goes'
    have refreshable : s.cache.refreshable = s'.cache.refreshable :=
      alike.reply (q := .snapshot) nofun
    rw [refreshable]
    exact ⟨alike.answer .snapshot, rfl⟩
  | succ depth =>
    have first : s ∈ snaps := by
      cases goes with
      | asks other => exact absurd rfl other
      | takes => exact List.mem_cons_self
    obtain ⟨told, eq, eq', same⟩ :=
      refresh_any_order alike regular.accounted.nodup_keys (apart s first) goes goes'
    obtain rfl := Progress.finished.inj eq
    obtain rfl := Progress.finished.inj eq'
    exact ⟨same.alike regular.still, rfl⟩

/-- No gate holds up what a caller does. -/
theorem passGate (gate : Option String) :
    Orderless Eq (Work.passGate gate) (Work.passGate gate) := by
  cases gate with
  | none => exact .done rfl
  | some name =>
    intro s s' t t' snaps snaps' a b regular alike goes apart goes'
    cases goes with
    | passes _ goes =>
      cases goes' with
      | passes _ goes' => exact Orderless.done rfl regular alike goes apart goes'

/-- An attempt comes to the same outcome, whatever its commands are answered. -/
theorem attempt {runAll : List Command → Work (List Answer)}
    (runs : ∀ commands, Orderless (List.Forall₂ Answer.Alike) (runAll commands) (runAll commands))
    (source : Nat) : Orderless Eq (Work.attempt runAll source) (Work.attempt runAll source) := by
  refine (steering (q := .attempt source) nofun nofun).bind fun begun begun' same => ?_
  subst same
  cases begun with
  | none => exact .done rfl
  | some begun =>
    refine (passGate begun.step.gate).bind fun _ _ _ => ?_
    refine (runs begun.step.commands).bind fun inner inner' _ => ?_
    have noted := record ⟨begun.name, begun.number + 1, inner⟩
      ⟨begun.name, begun.number + 1, inner'⟩
    exact noted.bind fun _ _ _ => .done rfl

theorem retrying {w : Work (Outcome Int)} (h : Orderless Eq w w) (n : Nat) :
    Orderless Eq (retrying w n) (retrying w n) := by
  induction n with
  | zero => exact h
  | succ n ih =>
    refine h.bind fun outcome outcome' same => ?_
    subst same
    cases outcome with
    | ok item => exact .done rfl
    | failed message => exact ih
    | panicked message => exact .done rfl

theorem withRetries {w : Work (Outcome Int)} (h : Orderless Eq w w) (retries : List Nat) :
    Orderless Eq (withRetries w retries) (withRetries w retries) := by
  -- every further limit wraps what the ones before it made of the work
  induction retries generalizing w with
  | nil => exact h
  | cons n rest ih => exact ih (h.retrying n)

mutual

theorem workWith {depth : Nat}
    (calls : ∀ callback, Orderless Eq (Work.call depth callback) (Work.call depth callback)) :
    ∀ command : Command, Orderless Answer.Alike (command.workWith (Work.call depth))
      (command.workWith (Work.call depth))
  | .act act => by
    simp only [Command.workWith]
    exact action act
  | .refresh => by
    simp only [Command.workWith]
    refine (refresh depth).bind fun result result' same => ?_
    subst same
    exact .done (.same _)
  | .call slot => by
    simp only [Command.workWith]
    refine (steering (q := .heldCallback slot) nofun nofun).bind fun held held' same => ?_
    subst same
    cases held with
    | none => exact .done (.same _)
    | some callback =>
      refine (calls callback).bind fun outcome outcome' same => ?_
      subst same
      exact .done (.same _)
  | .batch commands => by
    simp only [Command.workWith]
    exact (workAllWith calls commands).bind fun _ _ same => .done (.batch same)

theorem workAllWith {depth : Nat}
    (calls : ∀ callback, Orderless Eq (Work.call depth callback) (Work.call depth callback)) :
    ∀ commands : List Command,
      Orderless (List.Forall₂ Answer.Alike) (Command.workAllWith (Work.call depth) commands)
        (Command.workAllWith (Work.call depth) commands)
  | [] => by
    simp only [Command.workAllWith]
    exact .done .nil
  | command :: rest => by
    simp only [Command.workAllWith]
    refine (workWith calls command).bind fun answer answer' first => ?_
    exact (workAllWith calls rest).bind fun _ _ others => .done (.cons first others)

end

theorem call (depth : Nat) (callback : Callback) :
    Orderless Eq (Work.call depth callback) (Work.call depth callback) := by
  -- on the depth, as the commands of a step call other callbacks
  induction depth generalizing callback with
  | zero => exact .done rfl
  | succ depth ih => exact (attempt (workAllWith ih) _).withRetries _

end Orderless

end Work

/-- A command does the same whatever orders the refreshes in it choose. -/
theorem Command.orderless (command : Command) :
    Work.Orderless Answer.Alike command.work command.work :=
  .workWith (.call Work.maxDepth) command

end WarmCache
