import Dora.Lib.Text
import Dora.Message.Config

/-!
# Input mappings as text (`libraries/message/src/config.rs`)

An input mapping is written as a text with `/` between its parts and read back by a parser of its own.
The text of a timer names the coarsest unit that its interval is a whole number of.
-/

namespace Dora

open Lib

/-! ## Floating point

`hz` is an `f64`, and its interval the reciprocal rounded to nanoseconds. -/

/-- The integer nearest to `num / den`, ties to even. -/
def roundTiesEven (num den : Nat) : Nat :=
  let quotient := num / den
  let twice := 2 * (num % den)
  if twice < den then quotient
  else if den < twice then quotient + 1
  else quotient + quotient % 2

/-- The largest `k` with `2 ^ k ≤ num / den`. -/
def floorLog2 (num den : Nat) : Int :=
  let k : Int := (num.log2 : Int) - den.log2
  if den * 2 ^ k.toNat ≤ num * 2 ^ (-k).toNat then k else k - 1

/-- An `f64` by its value: a finite one is `mantissa * 2 ^ exponent` with a sign. -/
inductive F64 where
  | nan
  | infinite (negative : Bool)
  | finite (negative : Bool) (mantissa : Nat) (exponent : Int)
deriving DecidableEq

namespace F64

/-- The `f64` nearest to `num / den`: 53 bits, the smallest exponent is -1074 and the largest 971. -/
def round (negative : Bool) (num den : Nat) : F64 :=
  if num = 0 then .finite negative 0 0
  else
    let exponent := max (floorLog2 num den - 52) (-1074)
    let mantissa := roundTiesEven (num * 2 ^ (-exponent).toNat) (den * 2 ^ exponent.toNat)
    if 971 < exponent ∨ exponent = 971 ∧ mantissa = 2 ^ 53 then .infinite negative
    else .finite negative mantissa exponent

/-- `e`, a sign and digits, or nothing at all. -/
def parseExponent : List Char → Option Int
  | [] => some 0
  | e :: text =>
    let negative := text.head? = some '-'
    let digits := if text.head? = some '-' ∨ text.head? = some '+' then text.tail else text
    if (e = 'e' ∨ e = 'E') ∧ digits ≠ [] ∧ digits.all Char.isDigit then
      let value : Int := Nat.ofDigitChars 10 digits 0
      some (if negative then -value else value)
    else none

/-- A decimal number, rounded to the nearest `f64`. -/
def parseNumber (negative : Bool) (text : List Char) : Option F64 :=
  let whole := text.takeWhile Char.isDigit
  let rest := text.dropWhile Char.isDigit
  let fraction := if rest.head? = some '.' then rest.tail.takeWhile Char.isDigit else []
  let rest := if rest.head? = some '.' then rest.tail.dropWhile Char.isDigit else rest
  if whole.isEmpty && fraction.isEmpty then none
  else
    (parseExponent rest).map fun (exponent : Int) =>
      let digits := Nat.ofDigitChars 10 (whole ++ fraction) 0
      let shift : Int := exponent - fraction.length
      round negative (digits * 10 ^ shift.toNat) (10 ^ (-shift).toNat)

/-- `f64::from_str`. -/
def fromStr (s : String) : Option F64 :=
  let negative := s.toList.head? = some '-'
  let body := if s.toList.head? = some '-' ∨ s.toList.head? = some '+' then s.toList.tail else s.toList
  let word := body.map Char.toLower
  if word = "inf".toList ∨ word = "infinity".toList then some (.infinite negative)
  else if word = "nan".toList then some .nan
  else parseNumber negative body

/-- `is_finite` and greater than zero. -/
def isPositive : F64 → Bool
  | .finite false mantissa _ => 0 < mantissa
  | _ => false

/-- `1.0 / x` for a finite `x` that is not zero. -/
def reciprocal : F64 → F64
  | .finite negative mantissa exponent =>
    round negative (2 ^ (-exponent).toNat) (mantissa * 2 ^ exponent.toNat)
  | other => other

end F64

/-- `Duration::try_from_secs_f64`: the nearest number of nanoseconds, below `2 ^ 64` seconds. -/
def Duration.tryFromSecsF64 : F64 → Except String Duration
  | .finite negative mantissa exponent =>
    if negative ∧ 0 < mantissa then
      .error "cannot convert float seconds to Duration: value is negative"
    else if 2 ^ 64 * 2 ^ (-exponent).toNat ≤ mantissa * 2 ^ exponent.toNat then
      .error "cannot convert float seconds to Duration: value is either too big or NaN"
    else .ok (roundTiesEven (mantissa * 2 ^ exponent.toNat * 1000000000) (2 ^ (-exponent).toNat))
  | .infinite true => .error "cannot convert float seconds to Duration: value is negative"
  | _ => .error "cannot convert float seconds to Duration: value is either too big or NaN"

/-! ## Writing -/

def formatLogLevel : LogLevelOrStdout → String
  | .stdout => "stdout"
  | .logLevel .error => "error"
  | .logLevel .warn => "warn"
  | .logLevel .info => "info"
  | .logLevel .debug => "debug"
  | .logLevel .trace => "trace"

/-- `FormattedDuration`: the coarsest unit that is exact. -/
def formatDuration (interval : Duration) : String :=
  if interval % 1000000000 = 0 then "secs/" ++ (interval / 1000000000).repr
  else if interval % 1000000 = 0 then "millis/" ++ (interval / 1000000).repr
  else if interval % 1000 = 0 then "micros/" ++ (interval / 1000).repr
  else "nanos/" ++ interval.repr

/-- A node can only follow a level, so a filter without one is written with the most permissive. -/
def LogSubscriptionFilter.display (filter : LogSubscriptionFilter) : String :=
  match filter.minLevel, filter.nodeFilter with
  | some level, some node => "dora/logs/" ++ (formatLogLevel level ++ "/" ++ node.name)
  | some level, none => "dora/logs/" ++ formatLogLevel level
  | none, some node => "dora/logs/" ++ ("stdout/" ++ node.name)
  | none, none => "dora/logs"

def InputMapping.display : InputMapping → String
  | .timer interval => "dora/timer/" ++ formatDuration interval
  | .logs filter => filter.display
  | .user mapping => mapping.source.name ++ "/" ++ mapping.output.name

/-! ## Reading -/

/-- What it does to letters beyond ASCII only shows in error texts. -/
def toLowercase (s : String) : String := String.ofList (s.toList.map Char.toLower)

def parseLogLevelStr (s : String) : Except String LogLevelOrStdout :=
  match toLowercase s with
  | "stdout" => .ok .stdout
  | "error" => .ok (.logLevel .error)
  | "warn" => .ok (.logLevel .warn)
  | "info" => .ok (.logLevel .info)
  | "debug" => .ok (.logLevel .debug)
  | "trace" => .ok (.logLevel .trace)
  | other =>
    .error s!"unknown log level `{other}` (expected: stdout, error, warn, info, debug, trace)"

def wholeUnits (unit : String) (nanos : Nat) (value : String) : Except String Duration :=
  match parseUnsigned (2 ^ 64) value with
  | some count => .ok (count * nanos)
  | none => .error s!"{unit} must be an integer (got `{value}`)"

def hzInterval (value : String) : Except String Duration :=
  match F64.fromStr value with
  | none => .error s!"hz must be a positive number (got `{value}`)"
  | some hz =>
    if !hz.isPositive then .error s!"hz must be a positive finite number (got `{value}`)"
    else
      match Duration.tryFromSecsF64 hz.reciprocal with
      | .ok interval => .ok interval
      | .error e => .error s!"hz `{value}` produces an out-of-range interval: {e}"

def timerInterval (unit value : String) : Except String Duration :=
  match unit with
  | "secs" => wholeUnits "secs" 1000000000 value
  | "millis" => wholeUnits "millis" 1000000 value
  | "micros" => wholeUnits "micros" 1000 value
  | "nanos" => wholeUnits "nanos" 1 value
  | "hz" => hzInterval value
  | other =>
    .error s!"timer unit must be `secs`, `millis`, `micros`, `nanos`, or `hz` (got `{other}`)"

/-- What follows `dora/timer/`. -/
def parseTimer (output : String) : Except String InputMapping :=
  match splitOnce '/' output with
  | none =>
    .error "timer input must specify unit and value (e.g. `secs/5`, `millis/100`, or `hz/30`)"
  | some (unit, value) => do
      let interval ← timerInterval unit value
      if interval = 0 then
        .error (s!"timer interval must be non-zero (`{unit}/{value}` " ++
          "produces a zero-length interval)")
      else .ok (.timer interval)

/-- What follows `dora/logs/`. -/
def parseLogs (rest : String) : Except String InputMapping :=
  match splitOnce '/' rest with
  | some (level, node) => do
      let nodeFilter ← NodeId.fromStr node
      let minLevel ← parseLogLevelStr level
      .ok (.logs ⟨some minLevel, some nodeFilter⟩)
  | none =>
    if rest.isEmpty then .ok (.logs ⟨none, none⟩)
    else do
      let minLevel ← parseLogLevelStr rest
      .ok (.logs ⟨some minLevel, none⟩)

/-- What follows `dora/`. -/
def parseBuiltin (output : String) : Except String InputMapping :=
  match splitOnce '/' output with
  | some (kind, rest) =>
    if kind = "timer" then parseTimer rest
    else if kind = "logs" then parseLogs rest
    else .error s!"unknown dora input `{kind}`"
  | none =>
    -- `dora/logs` without a sub-path
    if output = "logs" then .ok (.logs ⟨none, none⟩)
    else .error "dora input has invalid format"

def InputMapping.fromStr (s : String) : Except String InputMapping :=
  match splitOnce '/' s with
  | none => .error "input must start with `<source>/`"
  | some (source, output) =>
    if source = "dora" then parseBuiltin output
    else do
      let source ← NodeId.fromStr source
      let output ← DataId.fromStr output
      .ok (.user ⟨source, output⟩)

/-! ## Reading what was written -/

def LogSubscriptionFilter.denoted (filter : LogSubscriptionFilter) : LogSubscriptionFilter :=
  match filter.minLevel, filter.nodeFilter with
  | none, some node => ⟨some .stdout, some node⟩
  | _, _ => filter

def InputMapping.denoted : InputMapping → InputMapping
  | .logs filter => .logs filter.denoted
  | mapping => mapping

/-- The mappings of a resolved dataflow: ids are valid and an interval is a `Duration` other than
zero. -/
def InputMapping.Resolved : InputMapping → Prop
  | .timer interval => 0 < interval ∧ interval < 2 ^ 64 * 1000000000
  | .logs filter => ∀ node ∈ filter.nodeFilter, validateNodeId node.name = .ok ()
  | .user mapping =>
    validateNodeId mapping.source.name = .ok () ∧ validateDataId mapping.output.name = .ok ()

/-- In some unit that it is a whole number of, the interval has a `u64` count. -/
def Countable (interval : Nat) : Prop :=
  interval % 1000000000 = 0 ∨ interval % 1000000 = 0 ∧ interval / 1000000 < 2 ^ 64 ∨
    interval % 1000 = 0 ∧ interval / 1000 < 2 ^ 64 ∨ interval < 2 ^ 64

def InputMapping.Writable : InputMapping → Prop
  | .timer interval => Countable interval
  | _ => True

theorem slash_not_mem_of_validateNodeId {id : String} (h : validateNodeId id = .ok ()) :
    '/' ∉ id.toList :=
  fun hmem => absurd (char_of_validateNodeId h hmem) (by decide)

theorem ne_dora_of_validateNodeId {id : String} (h : validateNodeId id = .ok ()) : id ≠ "dora" := by
  intro heq
  subst heq
  cases h

theorem nodeId_fromStr {node : NodeId} (h : validateNodeId node.name = .ok ()) :
    NodeId.fromStr node.name = .ok node := by
  unfold NodeId.fromStr
  rw [h]
  rfl

theorem dataId_fromStr {id : DataId} (h : validateDataId id.name = .ok ()) :
    DataId.fromStr id.name = .ok id := by
  unfold DataId.fromStr
  rw [h]
  rfl

theorem parseLogLevelStr_format (level : LogLevelOrStdout) :
    parseLogLevelStr (formatLogLevel level) = .ok level := by
  cases level with
  | stdout => rfl
  | logLevel level => cases level <;> rfl

theorem slash_not_mem_formatLogLevel (level : LogLevelOrStdout) :
    '/' ∉ (formatLogLevel level).toList := by
  cases level with
  | stdout => decide
  | logLevel level => cases level <;> decide

theorem fromStr_dora (text : String) : InputMapping.fromStr ("dora/" ++ text) = parseBuiltin text := by
  have hsplit : splitOnce '/' ("dora/" ++ text) = some ("dora", text) :=
    splitOnce_eq_some (by rw [String.toList_append]; rfl) (by decide)
  unfold InputMapping.fromStr
  rw [hsplit]
  exact if_pos rfl

theorem fromStr_timer (text : String) :
    InputMapping.fromStr ("dora/timer/" ++ text) = parseTimer text := by
  have hsplit : splitOnce '/' ("timer/" ++ text) = some ("timer", text) :=
    splitOnce_eq_some (by rw [String.toList_append]; rfl) (by decide)
  have hdora : "dora/timer/" ++ text = "dora/" ++ ("timer/" ++ text) := by
    rw [← String.append_assoc]
    rfl
  rw [hdora, fromStr_dora]
  unfold parseBuiltin
  rw [hsplit]
  exact if_pos rfl

theorem fromStr_logs (text : String) :
    InputMapping.fromStr ("dora/logs/" ++ text) = parseLogs text := by
  have hsplit : splitOnce '/' ("logs/" ++ text) = some ("logs", text) :=
    splitOnce_eq_some (by rw [String.toList_append]; rfl) (by decide)
  have hdora : "dora/logs/" ++ text = "dora/" ++ ("logs/" ++ text) := by
    rw [← String.append_assoc]
    rfl
  rw [hdora, fromStr_dora]
  unfold parseBuiltin
  rw [hsplit]
  show (if "logs" = "timer" then _ else _) = _
  rw [if_neg (by decide), if_pos rfl]

theorem parseLogs_level_node (level : LogLevelOrStdout) {node : NodeId}
    (hnode : validateNodeId node.name = .ok ()) :
    parseLogs (formatLogLevel level ++ "/" ++ node.name) = .ok (.logs ⟨some level, some node⟩) := by
  have hsplit : splitOnce '/' (formatLogLevel level ++ "/" ++ node.name) =
      some (formatLogLevel level, node.name) := by
    refine splitOnce_eq_some ?_ (slash_not_mem_formatLogLevel level)
    rw [String.toList_append, String.toList_append, List.append_assoc]
    rfl
  unfold parseLogs
  rw [hsplit]
  dsimp only
  rw [nodeId_fromStr hnode, parseLogLevelStr_format]
  rfl

theorem parseLogs_level (level : LogLevelOrStdout) :
    parseLogs (formatLogLevel level) = .ok (.logs ⟨some level, none⟩) := by
  have hsplit : splitOnce '/' (formatLogLevel level) = none :=
    splitOnce_eq_none (slash_not_mem_formatLogLevel level)
  have hlevel : (formatLogLevel level).isEmpty = false := by
    cases level with
    | stdout => rfl
    | logLevel level => cases level <;> rfl
  unfold parseLogs
  rw [hsplit, hlevel, parseLogLevelStr_format]
  rfl

theorem fromStr_display_logs {filter : LogSubscriptionFilter}
    (h : (InputMapping.logs filter).Resolved) :
    InputMapping.fromStr filter.display = .ok (.logs filter.denoted) := by
  obtain ⟨minLevel, nodeFilter⟩ := filter
  cases nodeFilter with
  | none =>
    cases minLevel with
    | none => rfl
    | some level => exact (fromStr_logs _).trans (parseLogs_level level)
  | some node =>
    have hnode : validateNodeId node.name = .ok () := h node rfl
    cases minLevel with
    | none => exact (fromStr_logs _).trans (parseLogs_level_node .stdout hnode)
    | some level => exact (fromStr_logs _).trans (parseLogs_level_node level hnode)

theorem fromStr_display_user {mapping : UserInputMapping} (h : (InputMapping.user mapping).Resolved) :
    InputMapping.fromStr (InputMapping.user mapping).display = .ok (.user mapping) := by
  have hsplit : splitOnce '/' (InputMapping.user mapping).display =
      some (mapping.source.name, mapping.output.name) := by
    refine splitOnce_eq_some ?_ (slash_not_mem_of_validateNodeId h.1)
    show (mapping.source.name ++ "/" ++ mapping.output.name).toList = _
    rw [String.toList_append, String.toList_append, List.append_assoc]
    rfl
  unfold InputMapping.fromStr
  rw [hsplit]
  dsimp only
  rw [if_neg (ne_dora_of_validateNodeId h.1), nodeId_fromStr h.1, dataId_fromStr h.2]
  rfl

/-- A written timer is read back iff its count is a `u64`. -/
theorem parseTimer_wholeUnits (unit : String) (nanos count : Nat) (hunit : '/' ∉ unit.toList)
    (hinterval : ∀ value, timerInterval unit value = wholeUnits unit nanos value)
    (hpos : 0 < count * nanos) :
    parseTimer (unit ++ "/" ++ count.repr) = .ok (.timer (count * nanos)) ↔ count < 2 ^ 64 := by
  have hsplit : splitOnce '/' (unit ++ "/" ++ count.repr) = some (unit, count.repr) := by
    refine splitOnce_eq_some ?_ hunit
    rw [String.toList_append, String.toList_append, List.append_assoc]
    rfl
  unfold parseTimer
  rw [hsplit]
  dsimp only
  rw [hinterval]
  unfold wholeUnits
  rw [parseUnsigned_repr]
  by_cases hcount : count < 2 ^ 64
  · rw [if_pos hcount]
    have hne : ¬count * nanos = 0 := by omega
    show (if count * nanos = 0 then _ else _) = _ ↔ _
    rw [if_neg hne]
    exact ⟨fun _ => hcount, fun _ => rfl⟩
  · rw [if_neg hcount]
    exact ⟨nofun, fun h => absurd h hcount⟩

theorem fromStr_display_timer {interval : Nat} (h : (InputMapping.timer interval).Resolved) :
    InputMapping.fromStr (InputMapping.timer interval).display = .ok (.timer interval) ↔
      Countable interval := by
  have hpos : 0 < interval := h.1
  have hbound : interval < 2 ^ 64 * 1000000000 := h.2
  -- the text names a unit and a count whose product is the interval
  have hunit : ∀ (unit : String) (nanos count : Nat), '/' ∉ unit.toList →
      (∀ value, timerInterval unit value = wholeUnits unit nanos value) →
      formatDuration interval = unit ++ "/" ++ count.repr → count * nanos = interval →
      (InputMapping.fromStr (InputMapping.timer interval).display = .ok (.timer interval) ↔
        count < 2 ^ 64) := by
    intro unit nanos count hunit hinterval hformat hproduct
    have hparse := parseTimer_wholeUnits unit nanos count hunit hinterval (by omega)
    rw [hproduct, ← hformat, ← fromStr_timer] at hparse
    exact hparse
  unfold Countable
  by_cases hsecs : interval % 1000000000 = 0
  · rw [hunit "secs" 1000000000 (interval / 1000000000) (by decide) (fun _ => rfl)
      (if_pos hsecs) (by omega)]
    omega
  by_cases hmillis : interval % 1000000 = 0
  · rw [hunit "millis" 1000000 (interval / 1000000) (by decide) (fun _ => rfl)
      ((if_neg hsecs).trans (if_pos hmillis)) (by omega)]
    omega
  by_cases hmicros : interval % 1000 = 0
  · rw [hunit "micros" 1000 (interval / 1000) (by decide) (fun _ => rfl)
      ((if_neg hsecs).trans ((if_neg hmillis).trans (if_pos hmicros))) (by omega)]
    omega
  · rw [hunit "nanos" 1 interval (by decide) (fun _ => rfl)
      ((if_neg hsecs).trans ((if_neg hmillis).trans (if_neg hmicros))) (by omega)]
    omega

/-- The text of a mapping is read as the mapping it denotes, except for timers whose count in the
coarsest exact unit is no `u64`. -/
theorem input_mapping_round_trip_iff (mapping : InputMapping) (h : mapping.Resolved) :
    InputMapping.fromStr mapping.display = .ok mapping.denoted ↔ mapping.Writable := by
  cases mapping with
  | timer => exact fromStr_display_timer h
  | logs => exact ⟨fun _ => trivial, fun _ => fromStr_display_logs h⟩
  | user => exact ⟨fun _ => trivial, fun _ => fromStr_display_user h⟩

theorem input_mapping_round_trip_nanos :
    (InputMapping.timer 333333).Resolved ∧
      (InputMapping.fromStr (InputMapping.timer 333333).display = .ok (.timer 333333) ↔
        (InputMapping.timer 333333).Writable) :=
  have hresolved : (InputMapping.timer 333333).Resolved := ⟨by decide, by decide⟩
  ⟨hresolved, input_mapping_round_trip_iff (.timer 333333) hresolved⟩

/-- A slow timer given in hertz has an interval that is written in more nanoseconds than are read. -/
theorem hz_interval_not_read_back :
    InputMapping.fromStr "dora/timer/hz/3e-11" = .ok (.timer 33333333333333332062) ∧
      (InputMapping.timer 33333333333333332062).display = "dora/timer/nanos/33333333333333332062" ∧
      InputMapping.fromStr "dora/timer/nanos/33333333333333332062" =
        .error "nanos must be an integer (got `33333333333333332062`)" :=
  ⟨by decide +kernel, by decide +kernel, by decide +kernel⟩

end Dora
