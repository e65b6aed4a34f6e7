import Mathlib.Data.List.TakeWhile
import PlaySocket.RouterSocket.SocketConfig

/-!
# Which settings take effect

A string of settings names some of the twelve options and a value for each.  What
the constructor makes of it follows from one lemma about the assignments to the
integer members.  They run in a fixed order, and the first option that is absent
ends them.  The boolean members come before and are always assigned, false where
the option is absent.

So all settings take effect, and every other member keeps its default, only if
the three boolean options are given, whose default is true, and no integer
option is given behind one that is absent, unless its value is the default.
-/

namespace PlaySocket

open Exec

inductive BoolOption where
  | immediate
  | routerHandOver
  | routerMandatory
deriving DecidableEq, Repr

inductive IntOption where
  | tcpKeepAlive
  | tcpKeepAliveCount
  | tcpKeepAliveInterval
  | backLog
  | linger
  | sendBufferSize
  | receiveBufferSize
  | sendHighWatermark
  | receiveHighWatermark
deriving DecidableEq, Repr

/-- An option and the value given for it. -/
inductive Setting where
  | bool (option : BoolOption) (value : Bool)
  | int (option : IntOption) (value : Int32)
deriving DecidableEq, Repr

namespace BoolOption

def name : BoolOption → String
  | immediate => "immediate"
  | routerHandOver => "router_handover"
  | routerMandatory => "router_mandatory"

/-- The member of the option. -/
def member (c : SocketConfig) : BoolOption → Bool
  | immediate => c.immediate
  | routerHandOver => c.routerHandOver
  | routerMandatory => c.routerMandatory

end BoolOption

namespace IntOption

def name : IntOption → String
  | tcpKeepAlive => "tcp_keepalive"
  | tcpKeepAliveCount => "tcp_keepalive_count"
  | tcpKeepAliveInterval => "tcp_keepalive_interval"
  | backLog => "backlog"
  | linger => "linger"
  | sendBufferSize => "send_buffer_size"
  | receiveBufferSize => "receive_buffer_size"
  | sendHighWatermark => "send_high_watermark"
  | receiveHighWatermark => "receive_high_watermark"

def member (c : SocketConfig) : IntOption → Int32
  | tcpKeepAlive => c.tcpKeepAlive
  | tcpKeepAliveCount => c.tcpKeepAliveCount
  | tcpKeepAliveInterval => c.tcpKeepAliveInterval
  | backLog => c.backLog
  | linger => c.linger
  | sendBufferSize => c.sendBufferSize
  | receiveBufferSize => c.receiveBufferSize
  | sendHighWatermark => c.sendHighWatermark
  | receiveHighWatermark => c.receiveHighWatermark

def put (value : Int32) (c : SocketConfig) : IntOption → SocketConfig
  | tcpKeepAlive => { c with tcpKeepAlive := value }
  | tcpKeepAliveCount => { c with tcpKeepAliveCount := value }
  | tcpKeepAliveInterval => { c with tcpKeepAliveInterval := value }
  | backLog => { c with backLog := value }
  | linger => { c with linger := value }
  | sendBufferSize => { c with sendBufferSize := value }
  | receiveBufferSize => { c with receiveBufferSize := value }
  | sendHighWatermark => { c with sendHighWatermark := value }
  | receiveHighWatermark => { c with receiveHighWatermark := value }

/-- The options in the order the constructor assigns them. -/
def all : List IntOption :=
  [tcpKeepAlive, tcpKeepAliveCount, tcpKeepAliveInterval, backLog, linger, sendBufferSize,
    receiveBufferSize, sendHighWatermark, receiveHighWatermark]

/-- The options assigned before one. -/
def before (o : IntOption) : List IntOption := all.takeWhile (· ≠ o)

theorem mem_all (o : IntOption) : o ∈ all := by
  cases o <;> decide

theorem member_put (value : Int32) (c : SocketConfig) (o o' : IntOption) :
    member (put value c o) o' = if o' = o then value else member c o' := by
  cases o <;> cases o' <;> rfl

theorem boolMember_put (value : Int32) (c : SocketConfig) (o : IntOption) (b : BoolOption) :
    BoolOption.member (put value c o) b = BoolOption.member c b := by
  cases o <;> rfl

end IntOption

namespace SocketConfig

variable {ε ρ : Type} {cx : Cxxopts ε ρ} {result : ρ}

/-! ## The assignments -/

/-- Some of the integer assignments. -/
def setEach (cx : Cxxopts ε ρ) (result : ρ) (os : List IntOption) : Exec ε SocketConfig Unit :=
  forEach (fun o => setInt cx result o.name fun value c => IntOption.put value c o) os

theorem setInts_eq (cx : Cxxopts ε ρ) (result : ρ) (c : SocketConfig) :
    (setInts cx result).run c = (setEach cx result IntOption.all).run c := by
  simp only [setInts, setEach, IntOption.all, forEach, run_bind, run_pure, Exit.andThen_unit]
  rfl

/-- An option whose value can be had. -/
def Readable (cx : Cxxopts ε ρ) (result : ρ) (o : IntOption) : Bool :=
  (cx.asInt result o.name).toOption.isSome

/-- The assignments go as far as values can be had and leave the rest alone. -/
theorem setEach_run (cx : Cxxopts ε ρ) (result : ρ) (os : List IntOption) :
    ∀ c : SocketConfig, ∃ c',
      ((setEach cx result os).run c = .ok () c' ∨
        ∃ e, (setEach cx result os).run c = .thrown e c') ∧
      (∀ b, BoolOption.member c' b = BoolOption.member c b) ∧
      ∀ o, IntOption.member c' o =
        if o ∈ os.takeWhile (Readable cx result) then
          (cx.asInt result o.name).toOption.getD 0 else IntOption.member c o := by
  induction os with
  | nil => intro c; exact ⟨c, .inl rfl, fun _ => rfl, fun _ => rfl⟩
  | cons first os ih =>
    intro c
    cases hread : cx.asInt result first.name with
    | error e =>
      have hunreadable : Readable cx result first = false := by rw [Readable, hread]; rfl
      refine ⟨c, .inr ⟨e, ?_⟩, fun _ => rfl, fun o => ?_⟩
      · rw [setEach, forEach, run_bind, setInt, run_bind, hread]
        rfl
      · rw [List.takeWhile_cons, hunreadable, if_neg (by simp)]
    | ok value =>
      have hreadable : Readable cx result first = true := by rw [Readable, hread]; rfl
      obtain ⟨c', hrun, hbools, hints⟩ := ih (IntOption.put value c first)
      have hset : (setEach cx result (first :: os)).run c =
          (setEach cx result os).run (IntOption.put value c first) := by
        rw [setEach, forEach, run_bind, setInt, run_bind, hread]
        rfl
      refine ⟨c', by rw [hset]; exact hrun, fun b => ?_, fun o => ?_⟩
      · rw [hbools, IntOption.boolMember_put]
      · rw [hints, IntOption.member_put, List.takeWhile_cons, hreadable, if_pos rfl]
        by_cases hmem : o ∈ os.takeWhile (Readable cx result)
        · rw [if_pos hmem, if_pos (List.mem_cons_of_mem first hmem)]
        · by_cases heq : o = first
          · rw [if_neg hmem, if_pos heq, if_pos (heq ▸ List.mem_cons_self), heq, hread]
            rfl
          · rw [if_neg hmem, if_neg heq, if_neg (by simp [heq, hmem])]

/-- The boolean members are always assigned. -/
theorem setBools_run {values : BoolOption → Bool}
    (hbools : ∀ o : BoolOption, cx.asBool result o.name = .ok (values o)) (c : SocketConfig) :
    (setBools cx result).run c = .ok ()
      { c with immediate := values .immediate, routerHandOver := values .routerHandOver,
               routerMandatory := values .routerMandatory } := by
  have himmediate : cx.asBool result "immediate" = .ok (values .immediate) := hbools .immediate
  have hhandOver : cx.asBool result "router_handover" = .ok (values .routerHandOver) :=
    hbools .routerHandOver
  have hmandatory : cx.asBool result "router_mandatory" = .ok (values .routerMandatory) :=
    hbools .routerMandatory
  simp only [setBools, setBool, run_bind, himmediate, hhandOver, hmandatory, run_fromExcept_ok,
    run_update, Exit.andThen_ok]

end SocketConfig

/-! ## Settings as text -/

namespace Setting

def name : Setting → String
  | bool option _ => option.name
  | int option _ => option.name

def decimal : Int → List Char
  | .ofNat n => Nat.toDigits 10 n
  | .negSucc n => '-' :: Nat.toDigits 10 (n + 1)

/-- The value, as it is written. -/
def text : Setting → List Char
  | bool _ true => "true".toList
  | bool _ false => "false".toList
  | int _ value => decimal value.toInt

/-- `--name=value` -/
def token (s : Setting) : List Char := "--".toList ++ s.name.toList ++ "=".toList ++ s.text

/-- The settings as one string. -/
def written (settings : List Setting) : List Char := [','].intercalate (settings.map token)

/-- Neither a comma nor a terminating null. -/
def Plain (c : Char) : Prop := c ≠ ',' ∧ c ≠ Char.ofNat 0

instance (c : Char) : Decidable (Plain c) := inferInstanceAs (Decidable (_ ∧ _))

theorem plain_of_isDigit {c : Char} (h : c.isDigit = true) : Plain c := by
  constructor
  · rintro rfl
    cases h
  · rintro rfl
    cases h

theorem decimal_plain (value : Int) : ∀ c ∈ decimal value, Plain c := by
  have hdigits : ∀ n, ∀ c ∈ Nat.toDigits 10 n, Plain c := by
    intro n c hmem
    exact plain_of_isDigit (Nat.isDigit_of_mem_toDigits (by decide) (by decide) hmem)
  cases value with
  | ofNat n => exact hdigits n
  | negSucc n =>
    intro c hmem
    rcases List.mem_cons.mp hmem with heq | hmem
    · rw [heq]
      decide
    · exact hdigits (n + 1) c hmem

theorem plain_of_all {text : List Char} (h : (text.all fun c => decide (Plain c)) = true) :
    ∀ c ∈ text, Plain c := by
  intro c hmem
  exact of_decide_eq_true (List.all_eq_true.mp h c hmem)

theorem text_plain (s : Setting) : ∀ c ∈ s.text, Plain c := by
  cases s with
  | bool option value => cases value <;> exact plain_of_all rfl
  | int option value => exact decimal_plain value.toInt

theorem name_plain (s : Setting) : ∀ c ∈ s.name.toList, Plain c := by
  have hbool : ∀ o : BoolOption, ∀ c ∈ o.name.toList, Plain c := by
    intro o
    cases o <;> exact plain_of_all (by decide)
  have hint : ∀ o : IntOption, ∀ c ∈ o.name.toList, Plain c := by
    intro o
    cases o <;> exact plain_of_all (by decide)
  cases s with
  | bool option value => exact hbool option
  | int option value => exact hint option

theorem token_plain (s : Setting) : ∀ c ∈ s.token, Plain c := by
  have hdashes : ∀ c ∈ "--".toList, Plain c := plain_of_all rfl
  have hequals : ∀ c ∈ "=".toList, Plain c := plain_of_all rfl
  intro c hmem
  simp only [token, List.mem_append] at hmem
  rcases hmem with ((hmem | hmem) | hmem) | hmem
  · exact hdashes c hmem
  · exact s.name_plain c hmem
  · exact hequals c hmem
  · exact s.text_plain c hmem

end Setting

namespace SocketConfig

variable {ε ρ : Type} {cx : Cxxopts ε ρ} {result : ρ} {settings : List Setting}

/-- Cutting the string gives the tokens back. -/
theorem fakeArgv_written (settings : List Setting) :
    fakeArgv (Setting.written settings) =
      "play_socket".toList :: settings.map Setting.token := by
  have hpieces : Delimited.pieces ',' (Setting.written settings) =
      settings.map Setting.token := by
    refine Delimited.pieces_intercalate ?_
    intro text hmem
    obtain ⟨s, _, rfl⟩ := List.mem_map.mp hmem
    refine ⟨?_, fun hcomma => (s.token_plain ',' hcomma).1 rfl⟩
    intro hnil
    cases hnil
  rw [fakeArgv, hpieces, List.map_map]
  congr 1
  refine List.map_congr_left fun s _ => ?_
  refine List.takeWhile_eq_self_iff.mpr fun c hmem => ?_
  exact decide_eq_true (s.token_plain c hmem).2

/-! ## What takes effect -/

/-- What cxxopts does with the tokens of some settings.  It records each value,
has false for a boolean option that is absent, and throws for an absent integer
option. -/
structure Records (cx : Cxxopts ε ρ) (settings : List Setting) (result : ρ) : Prop where
  parse_eq : cx.parse optionSpecs ("play_socket".toList :: settings.map Setting.token) =
    .ok result
  bool_given : ∀ o value, .bool o value ∈ settings → cx.asBool result o.name = .ok value
  bool_absent : ∀ o, (∀ value, .bool o value ∉ settings) → cx.asBool result o.name = .ok false
  int_given : ∀ o value, .int o value ∈ settings → cx.asInt result o.name = .ok value
  int_absent : ∀ o, (∀ value, .int o value ∉ settings) → ∃ e, cx.asInt result o.name = .error e

/-- Every member of a given option has the given value, and every other its default. -/
structure TakeEffect (settings : List Setting) (config : SocketConfig) : Prop where
  bool_given : ∀ o value, .bool o value ∈ settings → BoolOption.member config o = value
  bool_absent : ∀ o, (∀ value, .bool o value ∉ settings) →
    BoolOption.member config o = BoolOption.member {} o
  int_given : ∀ o value, .int o value ∈ settings → IntOption.member config o = value
  int_absent : ∀ o, (∀ value, .int o value ∉ settings) →
    IntOption.member config o = IntOption.member {} o

/-- All boolean options are given, and no integer option is given behind an absent
one with a value that is not its default. -/
def Gapless (settings : List Setting) : Prop :=
  (∀ o : BoolOption, ∃ value, .bool o value ∈ settings) ∧
    ∀ o value, .int o value ∈ settings →
      (∀ o' ∈ IntOption.before o, ∃ value', .int o' value' ∈ settings) ∨
        value = IntOption.member {} o

theorem mem_takeWhile_iff {α : Type} [DecidableEq α] {p : α → Bool} {x : α} {xs : List α}
    (h : x ∈ xs) : x ∈ xs.takeWhile p ↔ p x = true ∧ ∀ y ∈ xs.takeWhile (· ≠ x), p y = true := by
  induction xs with
  | nil => cases h
  | cons first xs ih =>
    rw [List.takeWhile_cons, List.takeWhile_cons]
    by_cases heq : first = x
    · subst heq
      by_cases hp : p first = true
      · simp [hp]
      · simp [hp]
    · have hmem : x ∈ xs := (List.mem_cons.mp h).resolve_left fun hx => heq hx.symm
      by_cases hp : p first = true
      · simp only [hp, heq, ne_eq, not_false_eq_true, decide_true, if_true, List.mem_cons,
          forall_eq_or_imp, true_and, ih hmem]
        constructor
        · rintro (hx | hmem)
          · exact absurd hx.symm heq
          · exact hmem
        · exact .inr
      · simp [hp, heq]

/-- An integer option can be read exactly if it is given. -/
theorem Records.readable_iff (h : Records cx settings result) (o : IntOption) :
    Readable cx result o = true ↔ ∃ value, .int o value ∈ settings := by
  constructor
  · intro hreadable
    by_contra hnone
    obtain ⟨e, hread⟩ := h.int_absent o fun value hmem => hnone ⟨value, hmem⟩
    rw [Readable, hread] at hreadable
    cases hreadable
  · intro hgiven
    obtain ⟨value, hmem⟩ := hgiven
    rw [Readable, h.int_given o value hmem]
    rfl

theorem Records.bool_read (h : Records cx settings result) (o : BoolOption) :
    ∃ value, cx.asBool result o.name = .ok value := by
  by_cases hgiven : ∃ value, .bool o value ∈ settings
  · obtain ⟨value, hmem⟩ := hgiven
    exact ⟨value, h.bool_given o value hmem⟩
  · exact ⟨false, h.bool_absent o fun value hmem => hgiven ⟨value, hmem⟩⟩

/-- The members the constructor makes of a result.  The integer ones have values
read from it as far as all before them can be read. -/
structure Configured (cx : Cxxopts ε ρ) (result : ρ) (config : SocketConfig) : Prop where
  bools : ∀ o : BoolOption, cx.asBool result o.name = .ok (BoolOption.member config o)
  ints : ∀ o, IntOption.member config o =
    if o ∈ IntOption.all.takeWhile (Readable cx result) then
      (cx.asInt result o.name).toOption.getD 0 else IntOption.member {} o

theorem construct_written (h : Records cx settings result) :
    ∃ config, construct cx (Setting.written settings) = .ok () config ∧
      Configured cx result config := by
  obtain ⟨values, hvalues⟩ := Classical.skolem.mp h.bool_read
  obtain ⟨config, hrun, hbools, hints⟩ := setEach_run cx result IntOption.all
    { immediate := values .immediate, routerHandOver := values .routerHandOver,
      routerMandatory := values .routerMandatory }
  refine ⟨config, ?_, fun o => ?_, fun o => ?_⟩
  · simp only [construct, attempt, run_bind, fakeArgv_written, h.parse_eq, run_fromExcept_ok,
      Exit.andThen_ok, setBools_run hvalues, setInts_eq]
    rcases hrun with hok | hthrown
    · rw [hok]
    · obtain ⟨e, hthrown⟩ := hthrown
      rw [hthrown]
      rfl
  · rw [hvalues o, hbools]
    cases o <;> rfl
  · rw [hints]
    cases o <;> rfl

theorem construct_rejected {option : List Char} {e : ε}
    (h : cx.parse optionSpecs (fakeArgv option) = .error e) : construct cx option = .ok () {} := by
  simp only [construct, attempt, run_bind, h, run_fromExcept_error, Exit.andThen_thrown, run_pure]

theorem Gapless.takeEffect (h : Records cx settings result) (hgapless : Gapless settings)
    {config : SocketConfig} (hconfig : Configured cx result config) :
    TakeEffect settings config where
  bool_given o value hmem := by
    have hread := h.bool_given o value hmem
    rw [hconfig.bools] at hread
    exact Except.ok.inj hread
  bool_absent o habsent := by
    obtain ⟨value, hmem⟩ := hgapless.1 o
    exact absurd hmem (habsent value)
  int_given o value hmem := by
    rw [hconfig.ints]
    by_cases hfront : o ∈ IntOption.all.takeWhile (Readable cx result)
    · rw [if_pos hfront, h.int_given o value hmem]
      rfl
    · rw [if_neg hfront]
      rcases hgapless.2 o value hmem with hbefore | hdefault
      · refine absurd ((mem_takeWhile_iff o.mem_all).mpr ⟨?_, fun o' hbefore' => ?_⟩) hfront
        · exact (h.readable_iff o).mpr ⟨value, hmem⟩
        · exact (h.readable_iff o').mpr (hbefore o' hbefore')
      · exact hdefault.symm
  int_absent o habsent := by
    rw [hconfig.ints, if_neg]
    intro hfront
    obtain ⟨value, hmem⟩ := (h.readable_iff o).mp ((mem_takeWhile_iff o.mem_all).mp hfront).1
    exact habsent value hmem

theorem TakeEffect.gapless (h : Records cx settings result) {config : SocketConfig}
    (hconfig : Configured cx result config) (htake : TakeEffect settings config) :
    Gapless settings := by
  constructor
  · intro o
    by_contra hnone
    have habsent : ∀ value, .bool o value ∉ settings := fun value hmem => hnone ⟨value, hmem⟩
    -- The member is false then, and its default is true.
    have hfalse := h.bool_absent o habsent
    rw [hconfig.bools, htake.bool_absent o habsent] at hfalse
    cases o <;> cases hfalse
  · intro o value hmem
    by_cases hfront : o ∈ IntOption.all.takeWhile (Readable cx result)
    · refine .inl fun o' hbefore => (h.readable_iff o').mp ?_
      exact ((mem_takeWhile_iff o.mem_all).mp hfront).2 o' hbefore
    · have hmember := htake.int_given o value hmem
      rw [hconfig.ints, if_neg hfront] at hmember
      exact .inr hmember.symm

/-- Of settings that cxxopts records, all take effect and all other members keep
their defaults exactly if there is no gap in them.  A string that cxxopts rejects
leaves every default. -/
theorem settings_take_effect_iff (cx : Cxxopts ε ρ) (settings : List Setting) (result : ρ)
    (h : Records cx settings result) :
    ((∃ config, construct cx (Setting.written settings) = .ok () config ∧
        TakeEffect settings config) ↔ Gapless settings) ∧
      ∀ option e, cx.parse optionSpecs (fakeArgv option) = .error e →
        construct cx option = .ok () {} := by
  obtain ⟨config, hconstruct, hconfig⟩ := construct_written h
  refine ⟨⟨fun htake => ?_, fun hgapless => ?_⟩, fun option e => construct_rejected⟩
  · obtain ⟨config', hconstruct', htake⟩ := htake
    rw [hconstruct] at hconstruct'
    cases hconstruct'
    exact htake.gapless h hconfig
  · exact ⟨config, hconstruct, hgapless.takeEffect h hconfig⟩

/-- Tokens looked up by their names, for all that cxxopts does with tokens of the
form `--name=value`. -/
def tokenTable : Cxxopts String (List (List Char)) where
  parse specs argv :=
    let declared := fun token : List Char =>
      specs.any fun spec => ("--" ++ spec.name ++ "=").toList.isPrefixOf token
    if argv.tail.all declared then .ok argv.tail else .error "Option does not exist"
  asBool tokens name :=
    match tokens.find? fun token => ("--" ++ name ++ "=").toList.isPrefixOf token with
    | some token => .ok (token.drop (name.length + 3) == "true".toList)
    | none => .ok false
  asInt tokens name :=
    match tokens.find? fun token => ("--" ++ name ++ "=").toList.isPrefixOf token with
    | some token =>
      match token.drop (name.length + 3) with
      | '-' :: digits => .ok (Int32.ofInt (-(Nat.ofDigitChars 10 digits 0)))
      | digits => .ok (Int32.ofInt (Nat.ofDigitChars 10 digits 0))
    | none => .error "Option is not present"

def fourSettings : List Setting :=
  [.int .tcpKeepAlive (-1), .bool .immediate false, .bool .routerMandatory true,
    .bool .routerHandOver true]

theorem fourSettings_recorded :
    Records tokenTable fourSettings (fourSettings.map Setting.token) where
  parse_eq := by decide +kernel
  bool_given := by
    intro o value hmem
    have hcases : o = .immediate ∧ value = false ∨ o = .routerMandatory ∧ value = true ∨
        o = .routerHandOver ∧ value = true := by
      simpa [fourSettings] using hmem
    rcases hcases with ⟨rfl, rfl⟩ | ⟨rfl, rfl⟩ | ⟨rfl, rfl⟩ <;> decide +kernel
  bool_absent := by
    intro o habsent
    cases o with
    | immediate => exact absurd (by decide) (habsent false)
    | routerHandOver => exact absurd (by decide) (habsent true)
    | routerMandatory => exact absurd (by decide) (habsent true)
  int_given := by
    intro o value hmem
    have hcases : o = .tcpKeepAlive ∧ value = -1 := by
      simpa [fourSettings] using hmem
    obtain ⟨rfl, rfl⟩ := hcases
    decide +kernel
  int_absent := by
    intro o habsent
    cases o with
    | tcpKeepAlive => exact absurd (by decide) (habsent (-1))
    | _ => exact ⟨"Option is not present", by decide +kernel⟩

theorem settings_take_effect_iff_four :
    ((∃ config, construct tokenTable (Setting.written fourSettings) = .ok () config ∧
        TakeEffect fourSettings config) ↔ Gapless fourSettings) ∧
      ∀ option e, tokenTable.parse optionSpecs (fakeArgv option) = .error e →
        construct tokenTable option = .ok () {} :=
  settings_take_effect_iff tokenTable fourSettings _ fourSettings_recorded

theorem noSettings_recorded : Records tokenTable [] [] where
  parse_eq := by decide +kernel
  bool_given o value hmem := by cases hmem
  bool_absent o _ := by cases o <;> decide
  int_given o value hmem := by cases hmem
  int_absent o _ := ⟨"Option is not present", by cases o <;> decide⟩

/-- With no settings at all three members lose their defaults, and a value behind
the first absent integer option is dropped. -/
theorem settings_lost :
    Setting.written [] = "".toList ∧ Records tokenTable [] [] ∧
      construct tokenTable "".toList = .ok ()
        { immediate := false, routerHandOver := false, routerMandatory := false } ∧
      Setting.written [.int .linger 7] = "--linger=7".toList ∧
      construct tokenTable "--linger=7".toList = .ok ()
        { immediate := false, routerHandOver := false, routerMandatory := false } ∧
      ({} : SocketConfig).immediate = true ∧ ({} : SocketConfig).linger = 0 :=
  ⟨by decide, noSettings_recorded, by decide +kernel, by decide +kernel, by decide +kernel,
    by decide, by decide⟩

end SocketConfig

end PlaySocket
