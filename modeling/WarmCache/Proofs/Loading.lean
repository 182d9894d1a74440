import Mathlib.Data.List.TakeWhile
import WarmCache.Settings
import WarmCache.Proofs.Numerals

/-!
# What an environment asks for

Each setting hangs on one variable. It is the number that the bytes of the variable write: valid
UTF-8 that is a numeral of the number once the blanks around it are left out. Where there is no such
number, or none in range, the default stands.

Results:
1. `writes_iff`: a numeral between blanks is what decoding and trimming leave.
2. `Setting.readHeld_eq_iff`: what a word reads in a variable.
3. `load_reads_numerals`: what an environment makes of a setting, and every rendering of a number
   loaded back.
-/

namespace WarmCache

/-! ## Blanks -/

theorem trimStart_padded {left body : List Char} (before : ∀ c ∈ left, isBlank c = true)
    (bare : ∀ c ∈ body, isBlank c = false) (nonempty : body ≠ []) (rest : List Char) :
    trimStart (left ++ (body ++ rest)) = body ++ rest := by
  obtain ⟨c, more, rfl⟩ := List.exists_cons_of_ne_nil nonempty
  have shows : ¬ isBlank c = true := Bool.not_eq_true _ ▸ bare c List.mem_cons_self
  rw [trimStart, List.dropWhile_append_of_pos before, List.cons_append,
    List.dropWhile_cons_of_neg shows]

/-- The blanks around a text that has none in it are what is trimmed. -/
theorem trim_padded {left body right : List Char} (before : ∀ c ∈ left, isBlank c = true)
    (bare : ∀ c ∈ body, isBlank c = false) (after : ∀ c ∈ right, isBlank c = true)
    (nonempty : body ≠ []) : trim (left ++ body ++ right) = body := by
  have back : trimStart (right.reverse ++ (body.reverse ++ [])) = body.reverse ++ [] :=
    trimStart_padded (fun c hc => after c (List.mem_reverse.1 hc))
      (fun c hc => bare c (List.mem_reverse.1 hc)) (List.reverse_ne_nil_iff.2 nonempty) []
  rw [List.append_nil, ← List.reverse_append] at back
  rw [trim, List.append_assoc, trimStart_padded before bare nonempty, back, List.reverse_reverse]

theorem exists_padding (cs : List Char) : ∃ left right, (∀ c ∈ left, isBlank c = true) ∧
    (∀ c ∈ right, isBlank c = true) ∧ cs = left ++ trim cs ++ right := by
  have start : cs.takeWhile isBlank ++ trimStart cs = cs := List.takeWhile_append_dropWhile
  have finish : (trimStart cs).reverse.takeWhile isBlank ++ trimStart (trimStart cs).reverse =
      (trimStart cs).reverse := List.takeWhile_append_dropWhile
  refine ⟨cs.takeWhile isBlank, ((trimStart cs).reverse.takeWhile isBlank).reverse,
    fun c hc => List.mem_takeWhile_imp hc,
    fun c hc => List.mem_takeWhile_imp (List.mem_reverse.1 hc), ?_⟩
  rw [List.append_assoc, trim, ← List.reverse_append, finish, List.reverse_reverse, start]

/-! ## Bytes -/

theorem fromUTF8?_eq_some_iff {bytes : ByteArray} {text : String} :
    String.fromUTF8? bytes = some text ↔ bytes = text.toUTF8 := by
  unfold String.fromUTF8?
  split
  · next valid =>
    rw [Option.some_inj]
    constructor
    · rintro rfl
      rfl
    · rintro rfl
      rfl
  · next invalid =>
    refine ⟨nofun, ?_⟩
    rintro rfl
    exact absurd text.isValidUTF8 invalid

/-- Bytes write a number: they are a numeral of it in UTF-8, with any blanks around. -/
inductive Writes (minus : Bool) (n : Int) : ByteArray → Prop
  | intro {left body right : List Char} (before : ∀ c ∈ left, isBlank c = true)
      (numeral : Numeral minus n body) (after : ∀ c ∈ right, isBlank c = true) :
      Writes minus n (String.ofList (left ++ body ++ right)).toUTF8

theorem writes_iff {minus : Bool} {n : Int} {bytes : ByteArray} : Writes minus n bytes ↔
    ∃ text, String.fromUTF8? bytes = some text ∧ Numeral minus n (trim text.toList) := by
  simp only [fromUTF8?_eq_some_iff]
  constructor
  · rintro ⟨before, numeral, after⟩
    refine ⟨_, rfl, ?_⟩
    rw [String.toList_ofList, trim_padded before numeral.not_isBlank after numeral.ne_nil]
    exact numeral
  · rintro ⟨text, rfl, numeral⟩
    obtain ⟨left, right, before, after, eq⟩ := exists_padding text.toList
    have written := Writes.intro before numeral after
    rw [← eq, String.ofList_toList] at written
    exact written

/-! ## Settings -/

/-- One of the settings. -/
inductive Setting where
  | ttl
  | refresh
  | flush
  | limit
deriving DecidableEq, Repr

namespace Setting

/-- The variable that holds a setting. -/
def name : Setting → String
  | ttl => "CACHE_TTL_SECS"
  | refresh => "CACHE_REFRESH_INTERVAL_SECS"
  | flush => "CACHE_FLUSH_INTERVAL_SECS"
  | limit => "CACHE_LIMIT"

/-- Whether a setting may be negative. -/
def signed : Setting → Bool
  | limit => true
  | _ => false

/-- The least value of a setting. -/
def low : Setting → Int
  | limit => wordMin
  | _ => 0

/-- The greatest value of a setting. -/
def high : Setting → Int
  | limit => wordMax
  | _ => Settings.maxUnsigned

/-- The value of a setting among all. -/
def value : Setting → Settings → Int
  | ttl, s => s.ttlSecs
  | refresh, s => s.refreshSecs
  | flush, s => s.flushSecs
  | limit, s => s.limit

/-- What a setting is if its variable is unset or holds certain bytes. -/
inductive Yields (f : Setting) (held : Option ByteArray) : Int → Prop
  | number {bytes : ByteArray} {n : Int} (set : held = some bytes)
      (writes : Writes f.signed n bytes) (fits : f.low ≤ n ∧ n ≤ f.high) : Yields f held n
  | default (none : ∀ bytes n, held = some bytes → Writes f.signed n bytes →
      ¬ (f.low ≤ n ∧ n ≤ f.high)) : Yields f held (f.value .default)

/-- The number that a variable holds, read in a word that has room for the setting's values. -/
def numberIn? (f : Setting) (held : Option ByteArray) : Option Int :=
  ((held.bind String.fromUTF8?).map fun text => trim text.toList).bind
    (readWord f.signed f.low f.high)

/-- That number, or else the default. -/
def readHeld (f : Setting) (held : Option ByteArray) : Int :=
  (f.numberIn? held).getD (f.value .default)

theorem low_le_zero (f : Setting) : f.low ≤ 0 := by
  cases f <;> decide

theorem zero_le_high (f : Setting) : 0 ≤ f.high := by
  cases f <;> decide

variable {f : Setting} {held : Option ByteArray} {n : Int}

theorem numberIn?_eq_some_iff : f.numberIn? held = some n ↔
    ∃ bytes, held = some bytes ∧ Writes f.signed n bytes ∧ f.low ≤ n ∧ n ≤ f.high := by
  simp only [numberIn?, Option.bind_eq_some_iff, Option.map_eq_some_iff, writes_iff,
    readWord_eq_some_iff f.low_le_zero f.zero_le_high]
  constructor
  · rintro ⟨_, ⟨text, ⟨bytes, set, decoded⟩, rfl⟩, numeral, fits⟩
    exact ⟨bytes, set, ⟨text, decoded, numeral⟩, fits⟩
  · rintro ⟨bytes, set, ⟨text, decoded, numeral⟩, fits⟩
    exact ⟨_, ⟨text, ⟨bytes, set, decoded⟩, rfl⟩, numeral, fits⟩

theorem numberIn?_eq_none_iff : f.numberIn? held = none ↔
    ∀ bytes n, held = some bytes → Writes f.signed n bytes → ¬ (f.low ≤ n ∧ n ≤ f.high) := by
  simp only [Option.eq_none_iff_forall_ne_some, ne_eq, numberIn?_eq_some_iff]
  constructor
  · intro none bytes n set writes fits
    exact none n ⟨bytes, set, writes, fits⟩
  · rintro none n ⟨bytes, set, writes, fits⟩
    exact none bytes n set writes fits

theorem readHeld_eq_iff : f.readHeld held = n ↔ f.Yields held n := by
  constructor
  · rintro rfl
    unfold readHeld
    cases read : f.numberIn? held with
    | some n =>
      obtain ⟨bytes, set, writes, fits⟩ := numberIn?_eq_some_iff.1 read
      exact .number set writes fits
    | none => exact .default (numberIn?_eq_none_iff.1 read)
  · intro yields
    cases yields with
    | number set writes fits =>
      rw [readHeld, numberIn?_eq_some_iff.2 ⟨_, set, writes, fits⟩, Option.getD_some]
    | default none => rw [readHeld, numberIn?_eq_none_iff.2 none, Option.getD_none]

theorem readSecs_eq (env : Environment) (name : String) (otherwise : Nat) :
    (Settings.readSecs env name otherwise : Int) =
      ((Settings.variableChars env name).bind (readWord false 0 Settings.maxUnsigned)).getD
        otherwise := by
  rw [Settings.readSecs]
  cases Settings.variableChars env name with
  | none => rfl
  | some cs =>
    rw [Option.bind_some, Option.bind_some, readWord_eq_readNatural]
    cases readNatural Settings.maxUnsigned cs <;> rfl

theorem readLimit_eq (env : Environment) (name : String) (otherwise : Int) :
    Settings.readLimit env name otherwise =
      ((Settings.variableChars env name).bind (readWord true wordMin wordMax)).getD otherwise := by
  have reader : readInteger wordMin wordMax = readWord true wordMin wordMax :=
    funext fun cs => (readWord_eq_readInteger (by decide) (by decide) cs).symm
  rw [Settings.readLimit, reader]

theorem value_load (f : Setting) (env : Environment) :
    f.value (Settings.load env) = f.readHeld (env f.name) := by
  cases f with
  | ttl => exact readSecs_eq env _ _
  | refresh => exact readSecs_eq env _ _
  | flush => exact readSecs_eq env _ _
  | limit => exact readLimit_eq env _ _

end Setting

/-- What an environment makes of a setting hangs on one variable: it is the number in range that the
bytes of the variable write, and the default if there is none. It comes out as read in a word. A
number in range that is written after any zeros and any of its signs, with any blanks around, is
loaded back. -/
theorem load_reads_numerals (f : Setting) :
    (∀ env n, f.value (Settings.load env) = n ↔ f.Yields (env f.name) n) ∧
      (∀ env, f.value (Settings.load env) = f.readHeld (env f.name)) ∧
      ∀ (env : Environment) (n : Int) (zeros : Nat) (sign left right : List Char),
        f.low ≤ n ∧ n ≤ f.high → Sign f.signed n sign →
        (∀ c ∈ left ++ right, isBlank c = true) →
        env f.name = some (String.ofList (left ++
          (sign ++ (List.replicate zeros '0' ++ Nat.toDigits 10 n.natAbs)) ++ right)).toUTF8 →
        f.value (Settings.load env) = n := by
  have yields : ∀ env n, f.value (Settings.load env) = n ↔ f.Yields (env f.name) n := by
    intro env n
    rw [f.value_load, Setting.readHeld_eq_iff]
  refine ⟨yields, f.value_load, fun env n zeros sign left right fits signed blank set => ?_⟩
  rw [List.forall_mem_append] at blank
  rw [yields]
  exact .number set (.intro blank.1 (.rendered signed zeros) blank.2) fits

/-- The least limit, which only a reader that subtracts can reach, after zeros and between blanks of
two and three bytes. -/
theorem load_reads_numerals_least :
    let env : Environment := fun _ => some "\u00a0\t-009223372036854775808\u3000\n".toUTF8
    (Settings.load env).limit = wordMin := by
  intro env
  exact (load_reads_numerals .limit).2.2 env wordMin 2 ['-'] ['\u00a0', '\t'] ['\u3000', '\n']
    (by decide) (.minus rfl (by decide)) (List.all_eq_true.1 rfl) rfl

end WarmCache
