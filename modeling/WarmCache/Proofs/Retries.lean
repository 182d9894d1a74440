import Mathlib.Data.List.Perm.Basic
import WarmCache.Session.Work

/-!
# How often a callback is tried

Retries are granted to a callback in turn, each grant around those before it. To try again after an
error is associative, so nested grants come to a single one, of as many attempts as the product of
what each of them allows. That is an equality of programs: it holds whatever an attempt does and
whatever else happens between two attempts.

Results:
1. `repeats_retrying`: the attempts that one grant makes, and the last of them is what it comes to.
2. `retryingCounted_eq`: a count of tries that is kept in a word never overflows.
3. `retrying_retrying`, `withRetries_eq`: nested grants are one grant.
4. `Callback.callWith_withRetries`: a callback with a further grant tries again what its calls do.
5. `retries_multiply`: all this for a callback, alone and in a session.
-/

namespace WarmCache

/-- Whether an attempt ended with an error, after which another can be made. -/
def Outcome.isFailed {α : Type} : Outcome α → Bool
  | failed _ => true
  | _ => false

/-! ## Grants around grants -/

section Grants

variable {m : Type → Type} [Monad m] {α : Type}

/-- Goes on with `again` after an error, and stays with anything else. -/
def orAgain (first again : m (Outcome α)) : m (Outcome α) := do
  match ← first with
  | .failed _ => again
  | outcome => pure outcome

theorem retrying_succ (attempt : m (Outcome α)) (n : Nat) :
    retrying attempt (n + 1) = orAgain attempt (retrying attempt n) := rfl

variable [LawfulMonad m]

theorem orAgain_assoc (first second third : m (Outcome α)) :
    orAgain (orAgain first second) third = orAgain first (orAgain second third) := by
  simp only [orAgain, bind_assoc]
  refine congrArg (first >>= ·) (funext fun outcome => ?_)
  cases outcome with
  | failed message => rfl
  | ok item => exact pure_bind _ _
  | panicked message => exact pure_bind _ _

theorem orAgain_retrying (attempt : m (Outcome α)) (a b : Nat) :
    orAgain (retrying attempt a) (retrying attempt b) = retrying attempt (a + (b + 1)) := by
  induction a with
  | zero => rw [Nat.zero_add, retrying_succ, retrying]
  | succ a ih => rw [retrying_succ, orAgain_assoc, ih, ← retrying_succ, Nat.add_right_comm]

/-- A grant of `b` further tries around one of `a`: each of its tries is a call with `a`. -/
theorem retrying_retrying (attempt : m (Outcome α)) (a b : Nat) :
    retrying (retrying attempt a) b = retrying attempt ((a + 1) * (b + 1) - 1) := by
  induction b with
  | zero =>
    rw [Nat.zero_add, Nat.mul_one, Nat.add_sub_cancel]
    rfl
  | succ b ih =>
    have product : a + ((a + 1) * (b + 1) - 1 + 1) = (a + 1) * (b + 1 + 1) - 1 := by
      have pos : 0 < (a + 1) * (b + 1) := Nat.mul_pos a.succ_pos b.succ_pos
      rw [Nat.mul_succ (a + 1) (b + 1)]
      omega
    rw [retrying_succ, ih, orAgain_retrying, product]

end Grants

/-- How many attempts grants of retries allow for one call, one around the other. -/
def allowed (retries : List Nat) : Nat := retries.foldr (fun n more => (n + 1) * more) 1

theorem allowed_pos (retries : List Nat) : 0 < allowed retries := by
  induction retries with
  | nil => exact Nat.one_pos
  | cons n rest ih => exact Nat.mul_pos n.succ_pos ih

theorem allowed_append (first second : List Nat) :
    allowed (first ++ second) = allowed first * allowed second := by
  induction first with
  | nil => exact (Nat.one_mul _).symm
  | cons n rest ih =>
    show (n + 1) * allowed (rest ++ second) = (n + 1) * allowed rest * allowed second
    rw [ih, Nat.mul_assoc]

theorem allowed_perm {first second : List Nat} (perm : first.Perm second) :
    allowed first = allowed second := by
  unfold allowed
  exact perm.foldr_eq' (fun a _ b _ rest => Nat.mul_left_comm (b + 1) (a + 1) rest) 1

theorem withRetries_eq {m : Type → Type} [Monad m] [LawfulMonad m] {α : Type}
    (attempt : m (Outcome α)) (retries : List Nat) :
    withRetries attempt retries = retrying attempt (allowed retries - 1) := by
  induction retries generalizing attempt with
  | nil => rfl
  | cons n rest ih =>
    show withRetries (retrying attempt n) rest = retrying attempt ((n + 1) * allowed rest - 1)
    rw [ih, retrying_retrying, Nat.sub_add_cancel (allowed_pos rest)]

instance : LawfulMonad Work :=
  LawfulMonad.mk' Work Work.bind_done (fun _ _ => rfl) Work.bind_assoc

/-! ## Grants to a callback -/

section Callbacks

variable {m : Type → Type} [Monad m] {α : Type}

theorem withRetries_append (attempt : m (Outcome α)) (first second : List Nat) :
    withRetries attempt (first ++ second) = withRetries (withRetries attempt first) second := by
  induction first generalizing attempt with
  | nil => rfl
  | cons n rest ih => exact ih (retrying attempt n)

namespace Callback

/-- How many attempts a callback may make in one call. -/
def allowed (c : Callback) : Nat := WarmCache.allowed c.retries

/-- The callback with grants of retries made one after the other. -/
def withAllRetries (c : Callback) (retries : List Nat) : Callback := retries.foldl withRetries c

theorem callWith_withRetries (c : Callback) (n : Nat) (attempt : m (Outcome α)) :
    (c.withRetries n).callWith attempt = retrying (c.callWith attempt) n :=
  withRetries_append attempt c.retries [n]

theorem withAllRetries_eq (c : Callback) (retries : List Nat) :
    c.withAllRetries retries = { c with retries := c.retries ++ retries } := by
  induction retries generalizing c with
  | nil => exact congrArg (mk c.source) (List.append_nil c.retries).symm
  | cons n rest ih =>
    show (c.withRetries n).withAllRetries rest = _
    rw [ih]
    exact congrArg (mk c.source) (List.append_assoc c.retries [n] rest)

theorem allowed_withRetries (c : Callback) (n : Nat) :
    (c.withRetries n).allowed = c.allowed * (n + 1) := by
  show WarmCache.allowed (c.retries ++ [n]) = _
  rw [allowed_append]
  exact congrArg (c.allowed * ·) (Nat.mul_one (n + 1))

theorem allowed_withAllRetries (c : Callback) (retries : List Nat) :
    (c.withAllRetries retries).allowed = c.allowed * WarmCache.allowed retries := by
  rw [withAllRetries_eq]
  exact allowed_append c.retries retries

theorem allowed_withAllRetries_eq (c : Callback) (retries : List Nat) :
    (c.withAllRetries retries).allowed =
      (c.withRetries (WarmCache.allowed retries - 1)).allowed := by
  rw [allowed_withAllRetries, allowed_withRetries, Nat.sub_add_cancel (allowed_pos retries)]

/-- A call depends on the retries of its callback by the number of attempts they allow. -/
theorem callWith_congr [LawfulMonad m] {first second : Callback}
    (same : first.allowed = second.allowed) (attempt : m (Outcome α)) :
    first.callWith attempt = second.callWith attempt := by
  simp only [callWith, withRetries_eq]
  exact congrArg (fun allowed => retrying attempt (allowed - 1)) same

end Callback

theorem Work.call_congr {first second : Callback} (source : first.source = second.source)
    (same : first.allowed = second.allowed) (depth : Nat) :
    call depth first = call depth second := by
  cases depth with
  | zero => rfl
  | succ depth =>
    simp only [call, source]
    exact Callback.callWith_congr same _

end Callbacks

/-! ## The attempts of a call -/

section Attempts

variable {σ α : Type}

/-- What call number `k` of `f` comes to, counted from zero, if calls are made one after the other,
with the state it leaves. -/
def nthCall (f : StateM σ (Outcome α)) : Nat → StateM σ (Outcome α)
  | 0, s => f s
  | k + 1, s => nthCall f k (f s).2

theorem nthCall_nextAnswer (answers : Nat → Outcome α) (k start : Nat) :
    nthCall (nextAnswer answers) k start = (answers (start + k), start + (k + 1)) := by
  induction k generalizing start with
  | zero => rfl
  | succ k ih =>
    show nthCall (nextAnswer answers) k (start + 1) = _
    rw [ih, Nat.add_right_comm start 1 k, Nat.add_right_comm start 1 (k + 1)]
    rfl

theorem retrying_succ_of_failed {f : StateM σ (Outcome α)} {s t : σ} {message : String}
    (h : f s = (.failed message, t)) (tries : Nat) :
    retrying f (tries + 1) s = retrying f tries t := by
  show (f >>= _) s = _
  simp only [bind, StateT.bind, h]

theorem retrying_succ_of_returned {f : StateM σ (Outcome α)} {s t : σ} {outcome : Outcome α}
    (h : f s = (outcome, t)) (returned : ∀ message, outcome ≠ .failed message) (tries : Nat) :
    retrying f (tries + 1) s = (outcome, t) := by
  show (f >>= _) s = _
  simp only [bind, StateT.bind, h]
  cases outcome with
  | failed message => exact absurd rfl (returned message)
  | ok item => rfl
  | panicked message => rfl

/-- A call stops at attempt `k`, counted from zero, if all before it were errors and it is none or
the last that is granted. -/
theorem retrying_stops {f : StateM σ (Outcome α)} {n k : Nat} {s : σ} (granted : k ≤ n)
    (errors : ∀ i < k, (nthCall f i s).1.isFailed = true)
    (last : k = n ∨ (nthCall f k s).1.isFailed = false) :
    retrying f n s = nthCall f k s := by
  induction n generalizing k s with
  | zero =>
    obtain rfl : k = 0 := Nat.le_zero.1 granted
    rfl
  | succ n ih =>
    cases k with
    | zero =>
      have ends : (f s).1.isFailed = false := last.resolve_left (Nat.succ_ne_zero n).symm
      have called : f s = ((f s).1, (f s).2) := rfl
      refine retrying_succ_of_returned called (fun message failed => ?_) n
      rw [failed] at ends
      cases ends
    | succ k =>
      have error : (f s).1.isFailed = true := errors 0 k.succ_pos
      obtain ⟨message, failed⟩ : ∃ message, (f s).1 = .failed message := by
        cases first : (f s).1 with
        | failed message => exact ⟨message, rfl⟩
        | ok item => rw [first] at error; cases error
        | panicked message => rw [first] at error; cases error
      rw [retrying_succ_of_failed (Prod.ext failed rfl)]
      exact ih (Nat.le_of_succ_le_succ granted)
        (fun i hi => errors (i + 1) (Nat.succ_lt_succ hi)) (last.imp_left Nat.succ.inj)

/-- How `call` repeats calls of `f`: it makes them up to the first that is no error, or `n + 1` of
them if they are all errors, and comes to what the last of them comes to. -/
structure Repeats (n : Nat) (f call : StateM σ (Outcome α)) : Prop where
  returns : ∀ s j, (∀ i < j, (nthCall f i s).1.isFailed = true) →
    (nthCall f j s).1.isFailed = false → call s = nthCall f (min j n) s
  gives_up : ∀ s, (∀ i ≤ n, (nthCall f i s).1.isFailed = true) → call s = nthCall f n s

theorem repeats_retrying (n : Nat) (f : StateM σ (Outcome α)) : Repeats n f (retrying f n) where
  returns s j errors ends := by
    refine retrying_stops (Nat.min_le_right j n)
      (fun i hi => errors i (Nat.lt_of_lt_of_le hi (Nat.min_le_left j n))) ?_
    rcases Nat.le_total j n with before | after
    · rw [Nat.min_eq_left before]
      exact .inr ends
    · exact .inl (Nat.min_eq_right after)
  gives_up s errors :=
    retrying_stops (Nat.le_refl n) (fun i hi => errors i (Nat.le_of_lt hi)) (.inl rfl)

end Attempts

/-! ## The count of tries -/

/-- Makes an attempt, and more of them as long as each one fails and `made`, which counts the tries
that failed before, is below `retries`. Both are 64-bit words; there is no outcome if the count
overflows. -/
def retryingCounted {m : Type → Type} [Monad m] {α : Type} (attempt : m (Outcome α))
    (retries made : UInt64) : m (Option (Outcome α)) := do
  match ← attempt with
  | .failed message =>
    if retries ≤ made then pure (some (.failed message))
    else if made.toNat + 1 < UInt64.size then retryingCounted attempt retries (made + 1)
    else pure none
  | outcome => pure (some outcome)
termination_by UInt64.size - made.toNat
decreasing_by
  rw [UInt64.toNat_add]
  simp only [UInt64.size] at *
  have one : (1 : UInt64).toNat = 1 := rfl
  omega

theorem retryingCounted_eq {m : Type → Type} [Monad m] [LawfulMonad m] {α : Type}
    (attempt : m (Outcome α)) (retries made : UInt64) :
    retryingCounted attempt retries made =
      some <$> retrying attempt (retries.toNat - made.toNat) := by
  generalize left : retries.toNat - made.toNat = tries
  induction tries generalizing made with
  | zero =>
    have spent : retries ≤ made := UInt64.le_iff_toNat_le.2 (Nat.sub_eq_zero_iff_le.1 left)
    rw [retryingCounted, retrying, map_eq_pure_bind]
    refine congrArg (attempt >>= ·) (funext fun outcome => ?_)
    cases outcome with
    | failed message => exact if_pos spent
    | ok item => rfl
    | panicked message => rfl
  | succ tries ih =>
    have open' : ¬ retries ≤ made := by
      rw [UInt64.le_iff_toNat_le]
      omega
    have fits : made.toNat + 1 < UInt64.size := by
      have word := retries.toNat_lt
      simp only [UInt64.size]
      omega
    have next : (made + 1).toNat = made.toNat + 1 := by
      rw [UInt64.toNat_add]
      exact Nat.mod_eq_of_lt fits
    rw [retryingCounted, retrying_succ, orAgain, map_bind]
    refine congrArg (attempt >>= ·) (funext fun outcome => ?_)
    cases outcome with
    | failed message =>
      have more := ih (made + 1) (by omega)
      simp only [open', fits, if_false, if_true, more]
    | ok item => exact (map_pure _ _).symm
    | panicked message => exact (map_pure _ _).symm

/-! ## Calls one after the other -/

section Calls

variable {σ α : Type}

/-- What calls of callbacks come to, made in order against the one source they share, each with the
state that it leaves. The callbacks may be copies of one, with grants of their own. -/
def callAll (attempt : StateM σ (Outcome α)) : List Callback → σ → List (Outcome α × σ)
  | [], _ => []
  | c :: rest, s =>
    let reached := c.callWith attempt s
    reached :: callAll attempt rest reached.2

theorem callAll_congr (attempt : StateM σ (Outcome α)) {first second : List Callback}
    (same : first.map Callback.allowed = second.map Callback.allowed) (s : σ) :
    callAll attempt first s = callAll attempt second s := by
  induction first generalizing second s with
  | nil => rw [List.map_eq_nil_iff.1 same.symm]
  | cons c rest ih =>
    obtain ⟨c', rest', rfl, one, more⟩ := List.map_eq_cons_iff.1 same.symm
    have call : c.callWith attempt = c'.callWith attempt := Callback.callWith_congr one.symm attempt
    simp only [callAll, call]
    rw [ih more.symm]

/-- What `n` retries do to a callback, where `attempt` is an attempt against its source.

A call of `c.withRetries n` repeats calls of `c` up to the first that is no error, but at most
`n + 1` of them, and comes to what the last of them came to. This holds also if the tries are
counted in a 64-bit word, which never overflows. With answers listed by number, of which `start`
were used before, a callback with no other grants uses one answer for every attempt.

A grant of `b` retries around one of `a` is a single grant of `(a + 1) * (b + 1)` attempts. So any
grants are one grant of as many attempts as their product says, in whatever order they were made;
nothing else of them shows in calls through copies that share the source. In a session a call
repeats the same work, so that this holds whatever else happens between its attempts. -/
theorem retries_multiply (attempt : StateM σ (Outcome α)) (c : Callback) :
    (∀ n, Repeats n (c.callWith attempt) ((c.withRetries n).callWith attempt)) ∧
      (∀ (retries : UInt64) (s : σ), retryingCounted (c.callWith attempt) retries 0 s =
        (some ((c.withRetries retries.toNat).callWith attempt s).1,
          ((c.withRetries retries.toNat).callWith attempt s).2)) ∧
      (∀ (answers : Nat → Outcome α) (source start n : Nat),
        (∀ j, (∀ i < j, (answers (start + i)).isFailed = true) →
          (answers (start + j)).isFailed = false →
          (Callback.withRetries ⟨source, []⟩ n).callWith (nextAnswer answers) start =
            (answers (start + min j n), start + min (j + 1) (n + 1))) ∧
        ((∀ i ≤ n, (answers (start + i)).isFailed = true) →
          (Callback.withRetries ⟨source, []⟩ n).callWith (nextAnswer answers) start =
            (answers (start + n), start + (n + 1)))) ∧
      (∀ a b, ((c.withRetries a).withRetries b).callWith attempt =
        (c.withRetries ((a + 1) * (b + 1) - 1)).callWith attempt) ∧
      (∀ retries : List Nat, (c.withAllRetries retries).callWith attempt =
          (c.withRetries (allowed retries - 1)).callWith attempt ∧
        ∀ other, retries.Perm other →
          (c.withAllRetries other).callWith attempt =
            (c.withAllRetries retries).callWith attempt) ∧
      (∀ (granted : List (List Nat)) (s : σ),
        callAll attempt (granted.map c.withAllRetries) s =
          callAll attempt (granted.map fun retries => c.withRetries (allowed retries - 1)) s) ∧
      (∀ (first second : List Callback) (s : σ),
        first.map Callback.allowed = second.map Callback.allowed →
        callAll attempt first s = callAll attempt second s) ∧
      ∀ depth,
        (∀ n, Work.call (depth + 1) (c.withRetries n) =
          retrying (Work.call (depth + 1) c) n) ∧
        (∀ retries : UInt64, retryingCounted (Work.call (depth + 1) c) retries 0 =
          some <$> Work.call (depth + 1) (c.withRetries retries.toNat)) ∧
        (∀ retries : List Nat, Work.call depth (c.withAllRetries retries) =
          Work.call depth (c.withRetries (allowed retries - 1))) ∧
        ∀ retries, allowed retries = c.allowed →
          Work.call depth { c with retries } = Work.call depth c := by
  refine ⟨fun n => ?_, fun retries s => ?_, fun answers source start n => ?_, fun a b => ?_,
    fun retries => ⟨Callback.callWith_congr (c.allowed_withAllRetries_eq retries) attempt,
      fun other perm => ?_⟩,
    fun granted s => callAll_congr attempt ?_ s,
    fun first second s same => callAll_congr attempt same s,
    fun depth => ⟨fun n => ?_, fun retries => ?_, fun retries => ?_, fun retries same => ?_⟩⟩
  · rw [c.callWith_withRetries]
    exact repeats_retrying n _
  · rw [retryingCounted_eq, c.callWith_withRetries]
    rfl
  · obtain ⟨returns, gives_up⟩ := repeats_retrying n (nextAnswer answers)
    simp only [nthCall_nextAnswer] at returns gives_up
    exact ⟨fun j errors ends => Nat.add_min_add_right j n 1 ▸ returns start j errors ends,
      gives_up start⟩
  · simp only [Callback.callWith_withRetries, retrying_retrying]
  · refine Callback.callWith_congr ?_ attempt
    rw [Callback.allowed_withAllRetries, Callback.allowed_withAllRetries, allowed_perm perm]
  · simp only [List.map_map]
    exact List.map_congr_left fun retries _ => c.allowed_withAllRetries_eq retries
  · exact c.callWith_withRetries n _
  · rw [retryingCounted_eq]
    exact congrArg (some <$> ·) (c.callWith_withRetries retries.toNat _).symm
  · refine Work.call_congr ?_ (c.allowed_withAllRetries_eq retries) depth
    rw [c.withAllRetries_eq]
    rfl
  · have source : ({ c with retries } : Callback).source = c.source := rfl
    exact Work.call_congr source same depth

/-- Two grants of one retry get past three errors in a row, in four attempts; a single grant of two
gives up before. -/
theorem retries_multiply_nested :
    let answers : Nat → Outcome Nat := fun n => if n < 3 then .failed "down" else .ok n
    let base : Callback := ⟨0, []⟩
    ((base.withRetries 1).withRetries 1).callWith (nextAnswer answers) 0 = (.ok 3, 4) ∧
      (base.withRetries 2).callWith (nextAnswer answers) 0 = (.failed "down", 3) := by
  intro answers base
  obtain ⟨_, _, counts, nested, _⟩ := retries_multiply (nextAnswer answers) base
  refine ⟨(congrFun (nested 1 1) 0).trans ((counts answers 0 0 3).1 3 (by decide) rfl), ?_⟩
  exact (counts answers 0 0 2).2 (by decide)

end Calls

end WarmCache
