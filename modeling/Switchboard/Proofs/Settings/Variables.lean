import Mathlib.Data.List.Basic
import Switchboard.Proofs.Text.Case
import Switchboard.Proofs.Text.Counts
import Switchboard.Proofs.Text.Trimming
import Switchboard.Session.Settings
import Switchboard.Table
import Switchboard.Telemetry.Settings

/-!
# Settings follow their variables

What the environment of a process makes of its settings, whatever it holds.

**Grammars.** What a text says as a label (`IsLabel`), as a policy (`NamesPolicy`), as a count
(`Text.IsCount`) and as a flag (`SaysFlag`). Each of the readers takes just the texts of its
grammar.

**One variable** (`Environment.Gives`). A variable gives a setting what its text says. If it is not
set, or its text says nothing, the setting falls back.

**All variables** (`ReadFrom`). The settings of a session and those of the logs, each from its own
variables.

**Main statement** (`settings_follow_variables`). There is always one way to read the settings,
which is the one that is followed. No other variable matters, and a variable with a text that says
nothing might as well not be set.
-/

namespace Switchboard

/-! ## Grammars -/

/-- A label is a text that is not blank, as it stands. -/
structure IsLabel (s label : String) : Prop where
  seen : ∃ c ∈ s.toList, Text.isBlank c = false
  verbatim : label = s

/-- A text names a policy if it is its name up to ASCII case, with white space around it. -/
inductive NamesPolicy (s : String) : Policy → Prop
  | reliable (h : Text.SameLetters (Text.trim s) "reliable") : NamesPolicy s .reliable
  | lossy (h : Text.SameLetters (Text.trim s) "lossy") : NamesPolicy s .lossy

/-- A text says yes or no if it is a word for it up to case, with white space around it. -/
inductive SaysFlag (s : String) : Bool → Prop
  | yes {w : String} (hw : w ∈ ["1", "true", "yes", "on"])
      (h : Text.SameLetters (Text.trim s) w) : SaysFlag s true
  | no {w : String} (hw : w ∈ ["0", "false", "no", "off"])
      (h : Text.SameLetters (Text.trim s) w) : SaysFlag s false

theorem Settings.readLabel_eq_some_iff (s label : String) :
    readLabel s = some label ↔ IsLabel s label := by
  unfold readLabel Text.allBlank
  by_cases hblank : s.toList.all Text.isBlank = true
  · rw [if_pos hblank]
    refine ⟨fun h => (Option.some_ne_none label h.symm).elim, fun ⟨⟨c, hc, hseen⟩, _⟩ => ?_⟩
    rw [List.all_eq_true.mp hblank c hc] at hseen
    cases hseen
  · rw [if_neg hblank, Option.some.injEq]
    refine ⟨fun h => ⟨?_, h.symm⟩, fun h => h.verbatim.symm⟩
    simpa using hblank

theorem Policy.read_eq_ok_iff {s : String} {p : Policy} :
    Policy.read s = .ok p ↔ NamesPolicy s p := by
  have hread : Policy.read s =
      if Text.lowerAscii (Text.trim s) = "reliable" then .ok .reliable
      else if Text.lowerAscii (Text.trim s) = "lossy" then .ok .lossy
      else .error ⟨Text.lowerAscii (Text.trim s)⟩ := rfl
  have hreliable : Text.lowerAscii (Text.trim s) = "reliable" ↔ _ :=
    Text.lowerAscii_eq_iff (by decide)
  have hlossy : Text.lowerAscii (Text.trim s) = "lossy" ↔ _ := Text.lowerAscii_eq_iff (by decide)
  rw [hread]
  constructor
  · intro h
    split at h
    case isTrue hword =>
      cases h
      exact .reliable (hreliable.mp hword)
    case isFalse =>
      split at h
      case isTrue hword =>
        cases h
        exact .lossy (hlossy.mp hword)
      case isFalse => cases h
  · rintro (h | h)
    case reliable => rw [if_pos (hreliable.mpr h)]
    case lossy =>
      have hother : Text.lowerAscii (Text.trim s) ≠ "reliable" := by
        rw [hlossy.mpr h]
        decide
      rw [if_neg hother, if_pos (hlossy.mpr h)]

theorem Policy.toOption_read_eq_some_iff (s : String) (p : Policy) :
    (Policy.read s).toOption = some p ↔ NamesPolicy s p := by
  rw [← Policy.read_eq_ok_iff]
  cases Policy.read s with
  | error u => simp [Except.toOption]
  | ok q => simp [Except.toOption]

namespace Telemetry.Settings

theorem plain_of_mem_words : ∀ w ∈ yesWords ++ noWords, Text.Plain w := by decide

theorem yesWords_disjoint : ∀ w ∈ yesWords, w ∉ noWords := by decide

theorem lower_mem_yesWords {s : String} :
    Text.lower (Text.trim s) ∈ yesWords ↔ SaysFlag s true := by
  rw [Text.lower_mem_iff fun w hw => plain_of_mem_words w (List.mem_append_left _ hw)]
  exact ⟨fun ⟨w, hw, h⟩ => .yes hw h, fun (.yes hw h) => ⟨_, hw, h⟩⟩

theorem lower_mem_noWords {s : String} :
    Text.lower (Text.trim s) ∈ noWords ↔ SaysFlag s false := by
  rw [Text.lower_mem_iff fun w hw => plain_of_mem_words w (List.mem_append_right _ hw)]
  exact ⟨fun ⟨w, hw, h⟩ => .no hw h, fun (.no hw h) => ⟨_, hw, h⟩⟩

theorem readFlag_eq (s : String) :
    readFlag s = if Text.lower (Text.trim s) ∈ yesWords then some true
      else if Text.lower (Text.trim s) ∈ noWords then some false else none := by
  simp only [readFlag, List.contains_iff_mem]

/-- **A flag is read from the words for yes and for no, whatever their case, and nothing else.** -/
theorem readFlag_eq_some_iff (s : String) (b : Bool) : readFlag s = some b ↔ SaysFlag s b := by
  rw [readFlag_eq]
  cases b with
  | true =>
    rw [← lower_mem_yesWords]
    by_cases hyes : Text.lower (Text.trim s) ∈ yesWords <;> simp [hyes]
  | false =>
    rw [← lower_mem_noWords]
    by_cases hyes : Text.lower (Text.trim s) ∈ yesWords
    · have hno := yesWords_disjoint _ hyes
      simp [hyes, hno]
    · simp [hyes]

/-- Greek capitals that look like a word do not make it, nor does the Kelvin sign. -/
example : ["YES", "\u2003oFf\n", "\u039f\u039d", "o\u212a", "yes."].map readFlag =
    [some true, some false, none, none, none] := by
  decide +kernel

/-- Beyond ASCII, a flag has nothing but white space. -/
theorem ascii_or_blank_of_saysFlag {s : String} {b : Bool} (h : SaysFlag s b) :
    ∀ c ∈ s.toList, c.toNat < 0x80 ∨ Text.isBlank c = true := by
  have hword : ∃ w ∈ yesWords ++ noWords, Text.SameLetters (Text.trim s) w := by
    cases h with
    | yes hw h => exact ⟨_, List.mem_append_left noWords hw, h⟩
    | no hw h => exact ⟨_, List.mem_append_right yesWords hw, h⟩
  obtain ⟨w, hw, hsame⟩ := hword
  have hascii := hsame.ascii fun c hc => (plain_of_mem_words w hw c hc).2.2
  rw [Text.trim, String.toList_ofList] at hascii
  obtain ⟨lead, trail, hs, hlead, htrail⟩ := Text.exists_trimChars s.toList
  intro c hc
  rw [hs, List.mem_append, List.mem_append] at hc
  rcases hc with (hc | hc) | hc
  · exact Or.inr (hlead c hc)
  · exact Or.inl (hascii c hc)
  · exact Or.inr (htrail c hc)

end Telemetry.Settings

/-! ## One variable -/

namespace Environment

variable {α : Type} {env env' : Environment} {name other s : String} {read : String → Option α}
  {Says : String → α → Prop} {fallback x : α}

/-- What a variable gives a setting: what its text says, if it is set to one that says something. -/
inductive Gives (env : Environment) (name : String) (Says : String → α → Prop) (fallback : α) :
    α → Prop
  | said {s : String} {x : α} (hset : env.get? name = some s) (hsaid : Says s x) :
      Gives env name Says fallback x
  | nothing {s : String} (hset : env.get? name = some s) (hsaid : ∀ x, ¬ Says s x) :
      Gives env name Says fallback fallback
  | unset (hunset : env.get? name = none) : Gives env name Says fallback fallback

theorem read_eq_none (hread : ∀ s x, read s = some x ↔ Says s x) (hsaid : ∀ x, ¬ Says s x) :
    read s = none :=
  Option.eq_none_iff_forall_ne_some.mpr fun x hx => hsaid x ((hread s x).mp hx)

/-- **A setting that is read from a variable is what the variable gives it**, as long as the reader
takes the texts that say something. -/
theorem gives_iff (hread : ∀ s x, read s = some x ↔ Says s x) :
    env.Gives name Says fallback x ↔ x = ((env.get? name).bind read).getD fallback := by
  constructor
  · rintro (⟨hset, hsaid⟩ | ⟨hset, hsaid⟩ | hunset)
    case said => rw [hset, Option.bind_some, (hread _ _).mpr hsaid, Option.getD_some]
    case nothing => rw [hset, Option.bind_some, read_eq_none hread hsaid, Option.getD_none]
    case unset => rw [hunset, Option.bind_none, Option.getD_none]
  · rintro rfl
    cases hset : env.get? name with
    | none => exact .unset hset
    | some s =>
      rw [Option.bind_some]
      cases hs : read s with
      | none => exact .nothing hset fun y hy => Option.some_ne_none y ((hread s y).mpr hy ▸ hs)
      | some y => exact .said hset ((hread s y).mp hs)

theorem gives_eq_iff {text fallback : String} :
    env.Gives name Eq fallback text ↔ text = (env.get? name).getD fallback := by
  have hread : ∀ s x : String, some s = some x ↔ s = x := fun s x => Option.some_inj
  rw [gives_iff hread, Option.bind_fun_some]

/-- The environment without a variable. -/
def unset (env : Environment) (name : String) : Environment :=
  ⟨env.entries.filter fun entry => entry.1 ≠ name⟩

theorem get?_unset (env : Environment) (name other : String) :
    (env.unset name).get? other = if other = name then none else env.get? other := by
  unfold get? unset
  rw [Table.lookup_filter]
  split <;> rfl

/-- A variable whose text is not read might as well not be set. -/
theorem bind_unset (read : String → Option α) (hset : env.get? name = some s)
    (hvain : other = name → read s = none) :
    ((env.unset name).get? other).bind read = (env.get? other).bind read := by
  rw [get?_unset]
  by_cases hname : other = name
  · rw [if_pos hname, hname, hset, Option.bind_none, Option.bind_some, hvain hname]
  · rw [if_neg hname]

/-- Two environments agree on some variables. -/
def AgreeOn (names : List String) (env env' : Environment) : Prop :=
  ∀ name ∈ names, env.get? name = env'.get? name

end Environment

/-! ## All variables -/

open Environment (AgreeOn)

/-- The settings of a session as its variables give them. -/
structure Settings.ReadFrom (settings : Settings) (env : Environment) : Prop where
  label : env.Gives "TEMPEST_SESSION_LABEL" IsLabel "tempest" settings.label
  messagePolicy : env.Gives "TEMPEST_MESSAGE_POLICY" NamesPolicy .reliable settings.messagePolicy
  observerBuffer : env.Gives "TEMPEST_OBSERVER_BUFFER" Text.IsCount 1 settings.observerBuffer

/-- What a process logs, as its variables give it: any text is a name and a filter, and inside a
container the lines are structured unless it is said otherwise. -/
structure Telemetry.Settings.ReadFrom (settings : Telemetry.Settings) (env : Environment) :
    Prop where
  serviceName : env.Gives "TEMPEST_SERVICE_NAME" Eq "tempest" settings.serviceName
  logLevel : ∃ fallback, env.Gives "RUST_LOG" Eq "info" fallback ∧
    env.Gives "TEMPEST_LOG_LEVEL" Eq fallback settings.logLevel
  consoleOutput : env.Gives "TEMPEST_CONSOLE_OUTPUT" SaysFlag true settings.consoleOutput
  jsonLogs : ∃ fallback, env.Gives "TEMPEST_JSON_LOGS" SaysFlag fallback settings.jsonLogs ∧
    (fallback = true ↔ (∃ s, env.get? "KUBERNETES_SERVICE_HOST" = some s) ∨
      ∃ s, env.get? "DOCKER_CONTAINER" = some s)

/-- Each setting is the same in two environments that agree on its own variables. -/
structure Environment.SettingsAlike (env env' : Environment) : Prop where
  label : AgreeOn ["TEMPEST_SESSION_LABEL"] env env' →
    (Settings.fromEnvironment env).label = (Settings.fromEnvironment env').label
  messagePolicy : AgreeOn ["TEMPEST_MESSAGE_POLICY"] env env' →
    (Settings.fromEnvironment env).messagePolicy = (Settings.fromEnvironment env').messagePolicy
  observerBuffer : AgreeOn ["TEMPEST_OBSERVER_BUFFER"] env env' →
    (Settings.fromEnvironment env).observerBuffer = (Settings.fromEnvironment env').observerBuffer
  serviceName : AgreeOn ["TEMPEST_SERVICE_NAME"] env env' →
    (Telemetry.Settings.fromEnvironment env).serviceName =
      (Telemetry.Settings.fromEnvironment env').serviceName
  logLevel : AgreeOn ["TEMPEST_LOG_LEVEL", "RUST_LOG"] env env' →
    (Telemetry.Settings.fromEnvironment env).logLevel =
      (Telemetry.Settings.fromEnvironment env').logLevel
  consoleOutput : AgreeOn ["TEMPEST_CONSOLE_OUTPUT"] env env' →
    (Telemetry.Settings.fromEnvironment env).consoleOutput =
      (Telemetry.Settings.fromEnvironment env').consoleOutput
  jsonLogs : AgreeOn ["TEMPEST_JSON_LOGS", "KUBERNETES_SERVICE_HOST", "DOCKER_CONTAINER"] env env' →
    (Telemetry.Settings.fromEnvironment env).jsonLogs =
      (Telemetry.Settings.fromEnvironment env').jsonLogs

/-- The variables whose text has to say something in particular. -/
def askedVariables : List String :=
  ["TEMPEST_SESSION_LABEL", "TEMPEST_MESSAGE_POLICY", "TEMPEST_OBSERVER_BUFFER",
    "TEMPEST_CONSOLE_OUTPUT", "TEMPEST_JSON_LOGS"]

/-- The text of a variable says something that the variable is read for, or the variable may hold
any text. -/
inductive Parses (name s : String) : Prop
  | label {l : String} (hname : name = "TEMPEST_SESSION_LABEL") (h : IsLabel s l)
  | messagePolicy {p : Policy} (hname : name = "TEMPEST_MESSAGE_POLICY") (h : NamesPolicy s p)
  | observerBuffer {n : Nat} (hname : name = "TEMPEST_OBSERVER_BUFFER") (h : Text.IsCount s n)
  | consoleOutput {b : Bool} (hname : name = "TEMPEST_CONSOLE_OUTPUT") (h : SaysFlag s b)
  | jsonLogs {b : Bool} (hname : name = "TEMPEST_JSON_LOGS") (h : SaysFlag s b)
  | free (hname : name ∉ askedVariables)

/-- **The settings of a session are what its variables give them.** -/
theorem Settings.readFrom_iff {settings : Settings} {env : Environment} :
    settings.ReadFrom env ↔ settings = fromEnvironment env := by
  constructor
  · rintro ⟨hlabel, hpolicy, hbuffer⟩
    rw [Environment.gives_iff readLabel_eq_some_iff] at hlabel
    rw [Environment.gives_iff Policy.toOption_read_eq_some_iff] at hpolicy
    rw [Environment.gives_iff Text.readCount_eq_some_iff] at hbuffer
    cases settings
    exact (Settings.mk.injEq ..).mpr ⟨hlabel, hpolicy, hbuffer⟩
  · rintro rfl
    exact ⟨(Environment.gives_iff readLabel_eq_some_iff).mpr rfl,
      (Environment.gives_iff Policy.toOption_read_eq_some_iff).mpr rfl,
      (Environment.gives_iff Text.readCount_eq_some_iff).mpr rfl⟩

namespace Telemetry.Settings

theorem inContainer_iff {env : Environment} :
    inContainer env = true ↔ (∃ s, env.get? "KUBERNETES_SERVICE_HOST" = some s) ∨
      ∃ s, env.get? "DOCKER_CONTAINER" = some s := by
  rw [inContainer, Bool.or_eq_true, Environment.has, Environment.has, Option.isSome_iff_exists,
    Option.isSome_iff_exists]

/-- The one variable of the filter goes before the other. -/
theorem logLevel_iff {env : Environment} {text : String} :
    (∃ fallback, env.Gives "RUST_LOG" Eq "info" fallback ∧
      env.Gives "TEMPEST_LOG_LEVEL" Eq fallback text) ↔
      text = ((env.get? "TEMPEST_LOG_LEVEL").or (env.get? "RUST_LOG")).getD "info" := by
  simp only [Environment.gives_eq_iff, exists_eq_left, Option.getD_or]

theorem jsonLogs_iff {env : Environment} {b : Bool} :
    (∃ fallback, env.Gives "TEMPEST_JSON_LOGS" SaysFlag fallback b ∧
      (fallback = true ↔ (∃ s, env.get? "KUBERNETES_SERVICE_HOST" = some s) ∨
        ∃ s, env.get? "DOCKER_CONTAINER" = some s)) ↔
      b = ((env.get? "TEMPEST_JSON_LOGS").bind readFlag).getD (inContainer env) := by
  simp only [Environment.gives_iff readFlag_eq_some_iff, ← inContainer_iff, Bool.coe_iff_coe,
    exists_eq_right]

/-- **What a process logs is what its variables give it.** -/
theorem readFrom_iff {settings : Telemetry.Settings} {env : Environment} :
    settings.ReadFrom env ↔ settings = fromEnvironment env := by
  constructor
  · rintro ⟨hname, hlevel, hconsole, hjson⟩
    rw [Environment.gives_eq_iff] at hname
    rw [logLevel_iff] at hlevel
    rw [Environment.gives_iff readFlag_eq_some_iff] at hconsole
    rw [jsonLogs_iff] at hjson
    cases settings
    exact (Settings.mk.injEq ..).mpr ⟨hname, hlevel, hconsole, hjson⟩
  · rintro rfl
    exact ⟨Environment.gives_eq_iff.mpr rfl, logLevel_iff.mpr rfl,
      (Environment.gives_iff readFlag_eq_some_iff).mpr rfl, jsonLogs_iff.mpr rfl⟩

end Telemetry.Settings

theorem Environment.settingsAlike (env env' : Environment) : env.SettingsAlike env' where
  label h := by
    unfold Settings.fromEnvironment
    rw [h "TEMPEST_SESSION_LABEL" (by simp)]
  messagePolicy h := by
    unfold Settings.fromEnvironment
    rw [h "TEMPEST_MESSAGE_POLICY" (by simp)]
  observerBuffer h := by
    unfold Settings.fromEnvironment
    rw [h "TEMPEST_OBSERVER_BUFFER" (by simp)]
  serviceName h := by
    unfold Telemetry.Settings.fromEnvironment
    rw [h "TEMPEST_SERVICE_NAME" (by simp)]
  logLevel h := by
    unfold Telemetry.Settings.fromEnvironment
    rw [h "TEMPEST_LOG_LEVEL" (by simp), h "RUST_LOG" (by simp)]
  consoleOutput h := by
    unfold Telemetry.Settings.fromEnvironment
    rw [h "TEMPEST_CONSOLE_OUTPUT" (by simp)]
  jsonLogs h := by
    unfold Telemetry.Settings.fromEnvironment Telemetry.Settings.inContainer has
    rw [h "TEMPEST_JSON_LOGS" (by simp), h "KUBERNETES_SERVICE_HOST" (by simp),
      h "DOCKER_CONTAINER" (by simp)]

theorem Settings.fromEnvironment_unset {env : Environment} {name s : String}
    (hset : env.get? name = some s) (hvain : ¬ Parses name s) :
    fromEnvironment (env.unset name) = fromEnvironment env := by
  have hlabel : "TEMPEST_SESSION_LABEL" = name → readLabel s = none := fun hname =>
    Environment.read_eq_none readLabel_eq_some_iff fun _ h => hvain (.label hname.symm h)
  have hpolicy : "TEMPEST_MESSAGE_POLICY" = name → (Policy.read s).toOption = none := by
    intro hname
    have hnone := Environment.read_eq_none Policy.toOption_read_eq_some_iff
      fun p (h : NamesPolicy s p) => hvain (.messagePolicy hname.symm h)
    exact hnone
  have hbuffer : "TEMPEST_OBSERVER_BUFFER" = name → Text.readCount s = none := fun hname =>
    Environment.read_eq_none Text.readCount_eq_some_iff
      fun _ h => hvain (.observerBuffer hname.symm h)
  unfold fromEnvironment
  rw [Environment.bind_unset readLabel hset hlabel,
    Environment.bind_unset (Policy.read · |>.toOption) hset hpolicy,
    Environment.bind_unset Text.readCount hset hbuffer]

theorem Environment.get?_unset_free {env : Environment} {name s : String}
    (hvain : ¬ Parses name s) (other : String) (hother : other ∉ askedVariables) :
    (env.unset name).get? other = env.get? other := by
  have hne : other ≠ name := by
    rintro rfl
    exact hvain (.free hother)
  rw [get?_unset, if_neg hne]

theorem Telemetry.Settings.fromEnvironment_unset {env : Environment} {name s : String}
    (hset : env.get? name = some s) (hvain : ¬ Parses name s) :
    fromEnvironment (env.unset name) = fromEnvironment env := by
  have hconsole : "TEMPEST_CONSOLE_OUTPUT" = name → readFlag s = none := fun hname =>
    Environment.read_eq_none readFlag_eq_some_iff fun _ h => hvain (.consoleOutput hname.symm h)
  have hjson : "TEMPEST_JSON_LOGS" = name → readFlag s = none := fun hname =>
    Environment.read_eq_none readFlag_eq_some_iff fun _ h => hvain (.jsonLogs hname.symm h)
  unfold fromEnvironment inContainer Environment.has
  rw [Environment.bind_unset readFlag hset hconsole, Environment.bind_unset readFlag hset hjson,
    Environment.get?_unset_free hvain "TEMPEST_SERVICE_NAME" (by decide),
    Environment.get?_unset_free hvain "TEMPEST_LOG_LEVEL" (by decide),
    Environment.get?_unset_free hvain "RUST_LOG" (by decide),
    Environment.get?_unset_free hvain "KUBERNETES_SERVICE_HOST" (by decide),
    Environment.get?_unset_free hvain "DOCKER_CONTAINER" (by decide)]

/-- **The settings of a process are read from its environment, whatever it holds.**

In every environment there are settings of a session and settings of the logs that are what their
variables give them, there are no others, and these are the ones that are read. Each of them is the
same in any environment that agrees on its own variables. A variable whose text does not parse may
be taken away without a change to either. A flag that is read has no character beyond ASCII but
white space. -/
theorem settings_follow_variables (env : Environment) :
    (∀ settings : Settings, settings.ReadFrom env ↔ settings = Settings.fromEnvironment env) ∧
    (∀ settings : Telemetry.Settings,
      settings.ReadFrom env ↔ settings = Telemetry.Settings.fromEnvironment env) ∧
    (∀ env', env.SettingsAlike env') ∧
    (∀ name s, env.get? name = some s → ¬ Parses name s →
      Settings.fromEnvironment (env.unset name) = Settings.fromEnvironment env ∧
        Telemetry.Settings.fromEnvironment (env.unset name) =
          Telemetry.Settings.fromEnvironment env) ∧
    (∀ s b, Telemetry.Settings.readFlag s = some b →
      ∀ c ∈ s.toList, c.toNat < 0x80 ∨ Text.isBlank c = true) := by
  refine ⟨fun _ => Settings.readFrom_iff, fun _ => Telemetry.Settings.readFrom_iff,
    env.settingsAlike, ?vain, ?flags⟩
  case vain =>
    intro name s hset hvain
    exact ⟨Settings.fromEnvironment_unset hset hvain,
      Telemetry.Settings.fromEnvironment_unset hset hvain⟩
  case flags =>
    intro s b hread
    exact Telemetry.Settings.ascii_or_blank_of_saysFlag
      ((Telemetry.Settings.readFlag_eq_some_iff s b).mp hread)

/-- An environment in which a count is too large by one and a flag is written in capitals. -/
def Environment.overflowing : Environment :=
  ⟨[("TEMPEST_OBSERVER_BUFFER", .text "+18446744073709551616"), ("DOCKER_CONTAINER", .text ""),
    ("TEMPEST_JSON_LOGS", .text "\u2003OFF\n")]⟩

theorem settings_follow_variables_overflowing :
    Environment.overflowing.get? "TEMPEST_OBSERVER_BUFFER" = some "+18446744073709551616" ∧
    ¬ Parses "TEMPEST_OBSERVER_BUFFER" "+18446744073709551616" ∧
    Settings.fromEnvironment (Environment.overflowing.unset "TEMPEST_OBSERVER_BUFFER") =
      Settings.fromEnvironment Environment.overflowing ∧
    Telemetry.Settings.readFlag "\u2003OFF\n" = some false ∧
    (∀ c ∈ "\u2003OFF\n".toList, c.toNat < 0x80 ∨ Text.isBlank c = true) ∧
    AgreeOn ["TEMPEST_MESSAGE_POLICY"] Environment.overflowing .empty ∧
    (Settings.fromEnvironment Environment.overflowing).messagePolicy =
      (Settings.fromEnvironment .empty).messagePolicy := by
  have hset : Environment.overflowing.get? "TEMPEST_OBSERVER_BUFFER" =
      some "+18446744073709551616" := by decide
  have hvain : ¬ Parses "TEMPEST_OBSERVER_BUFFER" "+18446744073709551616" := by
    intro h
    cases h with
    | observerBuffer _ hcount =>
      have hread := (Text.readCount_eq_some_iff _ _).mpr hcount
      have hnone : Text.readCount "+18446744073709551616" = none := by decide +kernel
      rw [hnone] at hread
      cases hread
    | free hname => exact hname (by decide)
    | _ hname => exact absurd hname (by decide)
  have hflag : Telemetry.Settings.readFlag "\u2003OFF\n" = some false := by decide +kernel
  have hagree : AgreeOn ["TEMPEST_MESSAGE_POLICY"] Environment.overflowing .empty := by
    intro name hname
    rw [List.mem_singleton.mp hname]
    decide
  obtain ⟨-, -, halike, hunset, hascii⟩ := settings_follow_variables Environment.overflowing
  exact ⟨hset, hvain, (hunset _ _ hset hvain).1, hflag, hascii _ _ hflag, hagree,
    (halike .empty).messagePolicy hagree⟩

end Switchboard
