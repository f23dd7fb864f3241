import Campaign.Proofs.Action
import Campaign.Proofs.Loading
import Campaign.Settings

/-!
# Which source settings come from

Three sources say what the settings are: the environment of the process, the nearest binding file,
and defaults.  The first two are merged by absence: a variable that is there keeps its value, be it
empty.  The settings are then read from what is merged (`told`), and there an empty variable counts
as absent and means the default.  The overlord's key alone has a second variable.

* `ofEnvironment_cases`: the settings that an environment tells, or the time that it writes wrong.
* `ofEnvironment_congr`: nothing but the variables in `named` matters.
* `load_follows_precedence`: **what is loaded, what is read from it, and that loading again changes
  nothing**, if the system can hold the bindings; else up to where it ends.
-/

namespace Campaign

open Act

/-- The value of a variable that is there and not empty. -/
def Environment.filled? (env : Environment) (name : String) : Option String :=
  (env.get? name).filter fun text => !text.isEmpty

namespace Settings

variable {τ : Type} [Seconds τ] {env : Environment}

/-! ### One variable -/

theorem given_text (env : Environment) (name : String) :
    given (env.map .text) name = ((env.get? name).map .text).getD .null := by
  rw [given, Table.get?_map]

theorem filled_text (env : Environment) (name : String) (default : Value) :
    filled (env.map .text) name default = ((env.filled? name).map .text).getD default := by
  rw [filled, given_text, Environment.filled?]
  cases env.get? name with
  | none => rfl
  | some text => cases hempty : text.isEmpty <;> simp [Value.truthy, hempty, Option.filter]

/-- **The number that a variable writes**, or a default if it is absent or empty. -/
def Reads (env : Environment) (name : String) (default r : Decimal.Reading) : Prop :=
  match env.filled? name with
  | none => r = default
  | some text => Decimal.Reading.ofText? text = some r

/-- A variable that is there and not empty writes no number. -/
def Misreads (env : Environment) (name text : String) : Prop :=
  env.filled? name = some text ∧ Decimal.Reading.ofText? text = none

theorem secondsOf_text (env : Environment) (name : String) (default : Decimal.Reading) :
    secondsOf (τ := τ) (env.map .text) name (Seconds.ofReading default) =
      match env.filled? name with
      | none => .ok (Seconds.ofReading default)
      | some text =>
        match Decimal.Reading.ofText? text with
        | some r => .ok (Seconds.ofReading r)
        | none => .error (.notNumber name (.text text)) := by
  rw [secondsOf, given_text, Environment.filled?]
  cases env.get? name with
  | none => rfl
  | some text =>
    by_cases hempty : text = ""
    · subst hempty
      rfl
    · have hfull : text.isEmpty = false := by simpa [String.isEmpty_iff] using hempty
      simp only [Option.map_some, Option.getD_some, Option.filter, hfull, Bool.not_false, if_true]
      split
      · cases ‹Value.text text = .null›
      · rename_i heq
        exact absurd (Value.text.inj heq) hempty
      · simp only [reading?, bind, Except.bind]
        cases Decimal.Reading.ofText? text <;> rfl

theorem secondsOf_cases (env : Environment) (name : String) (default : Decimal.Reading) :
    (∃ r, Reads env name default r ∧
        secondsOf (τ := τ) (env.map .text) name (Seconds.ofReading default) =
          .ok (Seconds.ofReading r)) ∨
      ∃ text, Misreads env name text ∧
        secondsOf (τ := τ) (env.map .text) name (Seconds.ofReading default) =
          .error (.notNumber name (.text text)) := by
  rw [secondsOf_text]
  cases hfilled : env.filled? name with
  | none => exact Or.inl ⟨default, by rw [Reads, hfilled], rfl⟩
  | some text =>
    cases hread : Decimal.Reading.ofText? text with
    | some r => exact Or.inl ⟨r, by rw [Reads, hfilled]; exact hread, by simp [hread]⟩
    | none => exact Or.inr ⟨text, ⟨hfilled, hread⟩, by simp [hread]⟩

theorem Reads.unique {name : String} {default r q : Decimal.Reading} (h : Reads env name default r)
    (g : Reads env name default q) : r = q := by
  unfold Reads at h g
  cases hfilled : env.filled? name with
  | none =>
    rw [hfilled] at h g
    exact h.trans g.symm
  | some text =>
    rw [hfilled] at h g
    exact Option.some.inj (h.symm.trans g)

theorem Reads.not_misreads {name text : String} {default r : Decimal.Reading}
    (h : Reads env name default r) : ¬ Misreads env name text := by
  rintro ⟨hfilled, hnone⟩
  rw [Reads, hfilled] at h
  cases hnone.symm.trans h

/-! ### All variables -/

/-- A text, or nothing. -/
def orNothing (text? : Option String) : Value := (text?.map .text).getD .null

/-- **What an environment tells**, with two times.  The overlord's key has an older variable, which
counts when the newer one is absent or empty. -/
def told (env : Environment) (barrierTimeout pollInterval : τ) : Settings τ where
  endpoint := .text ((env.filled? "ENDPOINT").getD "ws://127.0.0.1:9944")
  secrets := ⟨[
    ("root", orNothing (env.filled? "ROOT_PRIVKEY")),
    ("user", orNothing (env.filled? "USER_PRIVKEY")),
    ("overlord", orNothing
      ((env.filled? "OVERLORD_PRIVKEY").or (env.filled? "OVERLOAD_PRIVKEY"))),
    ("ferdie", orNothing (env.filled? "FERDIE_PRIVKEY")),
    ("charlie", orNothing (env.filled? "CHARLIE_PRIVKEY")),
    ("david", orNothing (env.filled? "DAVID_PRIVKEY")),
    ("eve", orNothing (env.filled? "EVE_PRIVKEY"))]⟩
  barrierTimeout
  pollInterval
  pallets := {
    sale := .text ((env.filled? "PW_NFT_SALE_PALLET").getD "PwNftSale")
    incubation := .text ((env.filled? "PW_INCUBATION_PALLET").getD "PwIncubation") }
  logLevel := .text (Text.upper ((env.filled? "LOG_LEVEL").getD "INFO"))

/-- The variables that are read. -/
def named : List String :=
  ["ENDPOINT", "ROOT_PRIVKEY", "USER_PRIVKEY", "OVERLORD_PRIVKEY", "OVERLOAD_PRIVKEY",
    "FERDIE_PRIVKEY", "CHARLIE_PRIVKEY", "DAVID_PRIVKEY", "EVE_PRIVKEY", "PW_BARRIER_TIMEOUT",
    "PW_POLL_INTERVAL", "PW_NFT_SALE_PALLET", "PW_INCUBATION_PALLET", "LOG_LEVEL"]

theorem filled_default (env : Environment) (name default : String) :
    filled (env.map .text) name (.text default) = .text ((env.filled? name).getD default) := by
  rw [filled_text]
  cases env.filled? name <;> rfl

theorem secretOf_text {role : String} (hnone : olderKeyVariables.lookup role = none)
    (name : String) : secretOf (env.map .text) role name = orNothing (env.filled? name) := by
  rw [secretOf, hnone, filled_text, orNothing]

theorem secretOf_overlord (name : String) : secretOf (env.map .text) "overlord" name =
    orNothing ((env.filled? name).or (env.filled? "OVERLOAD_PRIVKEY")) := by
  have holder : olderKeyVariables.lookup "overlord" = some "OVERLOAD_PRIVKEY" := rfl
  simp only [secretOf, holder, filled_text, orNothing]
  cases env.filled? name <;> rfl

/-- Settings are read: the two times first, then the rest, which cannot fail. -/
theorem ofEnvironment_eq (env : Environment) : ofEnvironment (τ := τ) env = (do
    let barrierTimeout : τ ← secondsOf (env.map .text) "PW_BARRIER_TIMEOUT" defaultBarrierTimeout
    let pollInterval : τ ← secondsOf (env.map .text) "PW_POLL_INTERVAL" defaultPollInterval
    return told env barrierTimeout pollInterval) := by
  rw [ofEnvironment, ofVariables]
  refine bind_congr fun _ => bind_congr fun _ => ?_
  have hsecrets : keyVariables.map (fun key => (key.1, secretOf (env.map .text) key.1 key.2)) =
      (told (τ := Unit) env () ()).secrets.entries := by
    simp [keyVariables, told, secretOf_overlord, secretOf_text, olderKeyVariables]
  simp only [localNode, filled_default, upper]
  rw [hsecrets]
  rfl

/-- **What comes of an environment**: settings, if both times can be read, or a fault about one that
cannot. -/
theorem ofEnvironment_cases (env : Environment) :
    (∃ b p, Reads env "PW_BARRIER_TIMEOUT" (.decimal false 60 0) b ∧
        Reads env "PW_POLL_INTERVAL" (.decimal false 1 (-1)) p ∧
        ofEnvironment (τ := τ) env =
          .ok (told env (Seconds.ofReading b) (Seconds.ofReading p))) ∨
      ∃ name ∈ ["PW_BARRIER_TIMEOUT", "PW_POLL_INTERVAL"], ∃ text, Misreads env name text ∧
        ofEnvironment (τ := τ) env = .error (.notNumber name (.text text)) := by
  rw [ofEnvironment_eq, defaultBarrierTimeout, defaultPollInterval]
  rcases secondsOf_cases (τ := τ) env "PW_BARRIER_TIMEOUT" (.decimal false 60 0) with
    ⟨b, hb, hread⟩ | ⟨text, hb, hread⟩
  · rcases secondsOf_cases (τ := τ) env "PW_POLL_INTERVAL" (.decimal false 1 (-1)) with
      ⟨p, hp, hpoll⟩ | ⟨text, hp, hpoll⟩
    · exact Or.inl ⟨b, p, hb, hp, by rw [hread, hpoll]; rfl⟩
    · exact Or.inr ⟨_, by simp, text, hp, by rw [hread, hpoll]; rfl⟩
  · exact Or.inr ⟨_, by simp, text, hb, by rw [hread]; rfl⟩

/-- If both times can be read, none is misread. -/
theorem not_misreads {b p : Decimal.Reading}
    (hb : Reads env "PW_BARRIER_TIMEOUT" (.decimal false 60 0) b)
    (hp : Reads env "PW_POLL_INTERVAL" (.decimal false 1 (-1)) p) {name text : String}
    (hname : name ∈ ["PW_BARRIER_TIMEOUT", "PW_POLL_INTERVAL"]) : ¬ Misreads env name text := by
  simp only [List.mem_cons, List.not_mem_nil, or_false] at hname
  rcases hname with rfl | rfl
  · exact hb.not_misreads
  · exact hp.not_misreads

/-- **The settings that an environment tells.** -/
theorem ofEnvironment_ok_iff {s : Settings τ} : ofEnvironment env = .ok s ↔
    ∃ b p, Reads env "PW_BARRIER_TIMEOUT" (.decimal false 60 0) b ∧
      Reads env "PW_POLL_INTERVAL" (.decimal false 1 (-1)) p ∧
      s = told env (Seconds.ofReading b) (Seconds.ofReading p) := by
  rcases ofEnvironment_cases (τ := τ) env with
    ⟨b, p, hb, hp, htold⟩ | ⟨name, hname, text, hmisreads, hfault⟩
  · rw [htold]
    constructor
    · intro h
      exact ⟨b, p, hb, hp, (Except.ok.inj h).symm⟩
    · rintro ⟨b', p', hb', hp', rfl⟩
      rw [hb.unique hb', hp.unique hp']
  · rw [hfault]
    constructor
    · nofun
    · rintro ⟨b, p, hb, hp, -⟩
      exact absurd hmisreads (not_misreads hb hp hname)

/-- **An environment tells no settings** if a time is written that is no number. -/
theorem ofEnvironment_error {f : Fault} (h : ofEnvironment (τ := τ) env = .error f) :
    ∃ name ∈ ["PW_BARRIER_TIMEOUT", "PW_POLL_INTERVAL"], ∃ text,
      Misreads env name text ∧ f = .notNumber name (.text text) := by
  rcases ofEnvironment_cases (τ := τ) env with
    ⟨b, p, -, -, htold⟩ | ⟨name, hname, text, hmisreads, hfault⟩
  · cases htold.symm.trans h
  · exact ⟨name, hname, text, hmisreads, Except.error.inj (h.symm.trans hfault)⟩

/-- A fault is about a time if and only if a time is written that is no number. -/
theorem kind_ofEnvironment_iff :
    (∃ f, ofEnvironment (τ := τ) env = .error f ∧ f.kind = "ConfigurationError") ↔
      ∃ name ∈ ["PW_BARRIER_TIMEOUT", "PW_POLL_INTERVAL"], ∃ text, Misreads env name text := by
  rcases ofEnvironment_cases (τ := τ) env with
    ⟨b, p, hb, hp, htold⟩ | ⟨name, hname, text, hmisreads, hfault⟩
  · constructor
    · rintro ⟨f, h, -⟩
      cases htold.symm.trans h
    · rintro ⟨name, hname, text, hmisreads⟩
      exact absurd hmisreads (not_misreads hb hp hname)
  · constructor
    · rintro -
      exact ⟨name, hname, text, hmisreads⟩
    · rintro -
      exact ⟨_, hfault, rfl⟩

/-- **Nothing but the named variables matters.** -/
theorem ofEnvironment_congr {other : Environment}
    (h : ∀ name ∈ named, other.get? name = env.get? name) :
    ofEnvironment (τ := τ) other = ofEnvironment env := by
  have hfilled : ∀ name ∈ named, other.filled? name = env.filled? name := fun name hname => by
    rw [Environment.filled?, Environment.filled?, h name hname]
  simp only [named, List.forall_mem_cons] at hfilled
  have htold : ∀ b p, told (τ := τ) other b p = told env b p := fun b p => by
    simp only [told, hfilled]
  simp only [ofEnvironment_eq, htold, defaultBarrierTimeout, defaultPollInterval, secondsOf_text,
    hfilled]

/-! ### Loading -/

theorem load_merged (env : Environment) (files : Files) (withFile : Bool) :
    load (τ := τ) env files withFile =
      match env.merged (env.found files withFile) with
      | (after, some f) => (after, .error f)
      | (after, none) => (after, ofEnvironment after) := by
  rw [load, Environment.load_eq]
  rcases env.merged (env.found files withFile) with ⟨after, _ | f⟩ <;> rfl

theorem load_fst (env : Environment) (files : Files) (withFile : Bool) :
    (load (τ := τ) env files withFile).1 = (env.merged (env.found files withFile)).1 := by
  rw [load_merged]
  rcases env.merged (env.found files withFile) with ⟨after, _ | f⟩ <;> rfl

theorem load_of_holds {files : Files} {withFile : Bool}
    (h : env.Holds (env.found files withFile)) :
    let after := (env.merged (env.found files withFile)).1
    load (τ := τ) env files withFile = (after, ofEnvironment after) := by
  intro after
  have hends := (Environment.get?_merged h).2
  rw [load_merged]
  rcases hmerged : env.merged (env.found files withFile) with ⟨after', _ | f⟩
  · simp [after, hmerged]
  · rw [hmerged] at hends
    cases hends

/-- A variable that cannot be held keeps settings from being read. -/
theorem load_of_refused {files : Files} {withFile : Bool} {f : Fault}
    (h : (env.merged (env.found files withFile)).2 = some f) :
    (load (τ := τ) env files withFile).2 = .error f := by
  rw [load_merged]
  rcases hmerged : env.merged (env.found files withFile) with ⟨after, _ | g⟩
  · rw [hmerged] at h
    cases h
  · rw [hmerged] at h
    exact congrArg Except.error (Option.some.inj h)

/-- **The process goes first, then the binding file, then the defaults.**

Whatever loading comes to, a variable of the process keeps its value, and nothing is added but what
the last binding of an absent name says.  If the system can hold these variables, then exactly they
are added; the settings are what the merged environment tells, or there are none, which is for a
time that is written and no number; loading again gives the same, and so does any loading that comes
to the same values of the named variables.  Otherwise the first variable that cannot be held ends
the loading: it is refused as a value, and those before it have been added. -/
theorem load_follows_precedence (env : Environment) (files : Files) (withFile : Bool) :
    let bs := env.found files withFile
    let loaded := load (τ := τ) env files withFile
    (∀ name old, env.get? name = some old → loaded.1.get? name = some old) ∧
      (∀ name, env.get? name = none →
        loaded.1.get? name = none ∨ loaded.1.get? name = Environment.bound? bs name) ∧
      (env.Holds bs →
        (∀ name, loaded.1.get? name = (env.get? name).or (Environment.bound? bs name)) ∧
        (∀ s, loaded.2 = .ok s ↔
          ∃ b p, Reads loaded.1 "PW_BARRIER_TIMEOUT" (.decimal false 60 0) b ∧
            Reads loaded.1 "PW_POLL_INTERVAL" (.decimal false 1 (-1)) p ∧
            s = told loaded.1 (Seconds.ofReading b) (Seconds.ofReading p)) ∧
        ((∃ f, loaded.2 = .error f ∧ f.kind = "ConfigurationError") ↔
          ∃ name ∈ ["PW_BARRIER_TIMEOUT", "PW_POLL_INTERVAL"], ∃ text,
            Misreads loaded.1 name text) ∧
        (∀ f, loaded.2 = .error f → f.kind = "ConfigurationError") ∧
        (∀ again : Bool, (again = true → withFile = true) →
          load loaded.1 files again = loaded) ∧
        ∀ (other : Environment) (files' : Files) (withFile' : Bool),
          other.Holds (other.found files' withFile') →
          (∀ name ∈ named,
            (load (τ := τ) other files' withFile').1.get? name = loaded.1.get? name) →
          (load (τ := τ) other files' withFile').2 = loaded.2) ∧
      (¬ env.Holds bs →
        ∃ done name value after f, (Table.ofList bs).entries = done ++ (name, some value) :: after ∧
          (∀ n, loaded.1.get? n = (env.get? n).or (Table.find? n done).join) ∧
          env.get? name = none ∧ Environment.bound? bs name = some value ∧
          ¬ Environment.Holdable name value ∧ loaded.2 = .error f ∧ f.kind = "ValueError") := by
  intro bs loaded
  have hfst : loaded.1 = (env.merged bs).1 := load_fst env files withFile
  have hcases : ∀ name, (env.merged bs).1.get? name = env.get? name ∨
      env.get? name = none ∧ (env.merged bs).1.get? name = Environment.bound? bs name :=
    Environment.get?_merged_cases
  refine ⟨fun name old hold => ?_, fun name habsent => ?_, fun hholds => ?_, fun hrefused => ?_⟩
  · rcases hcases name with hsame | ⟨habsent, -⟩
    · rw [hfst, hsame, hold]
    · cases habsent.symm.trans hold
  · rcases hcases name with hsame | ⟨-, hbound⟩
    · exact Or.inl (by rw [hfst, hsame, habsent])
    · exact Or.inr (by rw [hfst, hbound])
  · have hloaded : loaded = ((env.merged bs).1, ofEnvironment (env.merged bs).1) :=
      load_of_holds hholds
    have hread : loaded.2 = ofEnvironment loaded.1 := by rw [hloaded]
    refine ⟨fun name => ?_, fun s => ?_, ?_, fun f hf => ?_, fun again hagain => ?_,
      fun other files' withFile' hother hagree => ?_⟩
    · rw [hfst, (Environment.get?_merged hholds).1]
    · rw [hread, ofEnvironment_ok_iff]
    · rw [hread, kind_ofEnvironment_iff]
    · rw [hread] at hf
      obtain ⟨_, -, _, -, rfl⟩ := ofEnvironment_error hf
      rfl
    · have hagain := Environment.merged_again hagain hholds
      rw [hloaded, load_merged, hagain]
    · have hother := load_of_holds (τ := τ) hother
      rw [hread]
      rw [hother] at hagree ⊢
      exact ofEnvironment_congr hagree
  · obtain ⟨done, name, value, after, f, hes, hget, habsent, hbound, hheld, hfault, hkind⟩ :=
      Environment.merged_refused hrefused
    refine ⟨done, name, value, after, f, hes, fun n => ?_, habsent, hbound, hheld,
      load_of_refused hfault, hkind⟩
    rw [hfst, hget]

/-- A process with an empty endpoint and the older variable of the overlord's key. -/
def shadowing : Environment := ⟨[("ENDPOINT", ""), ("OVERLOAD_PRIVKEY", "//Bob")]⟩

/-- A binding file that sets an endpoint, and the level of the log twice. -/
def bindingFile : Files where
  texts := ⟨[(".env", "LOG_LEVEL=warn\nENDPOINT=ws://node\nLOG_LEVEL=debug\n")]⟩

set_option maxRecDepth 10000 in
/-- An empty endpoint hides the one in the file and means the default; of the levels of the log the
last one counts; and the overlord's key is found under its older name. -/
theorem load_follows_precedence_shadowing :
    let loaded := load (τ := Value) shadowing bindingFile true
    loaded.1.get? "ENDPOINT" = some "" ∧ loaded.1.get? "LOG_LEVEL" = some "debug" ∧
      load loaded.1 bindingFile true = loaded ∧
      ∃ s : Settings Value, loaded.2 = .ok s ∧ s.endpoint = "ws://127.0.0.1:9944" ∧
        s.logLevel = "DEBUG" ∧ s.secrets.get? "overlord" = some "//Bob" := by
  intro loaded
  obtain ⟨hkept, -, hholds, -⟩ := load_follows_precedence (τ := Value) shadowing bindingFile true
  have hheld : Environment.Holds shadowing (shadowing.found bindingFile true) :=
    Environment.holds_of_forall (by decide +kernel)
  obtain ⟨hmerged, htold, -, hkind, hagain, -⟩ := hholds hheld
  have hendpoint := hkept "ENDPOINT" "" rfl
  have hlevel : loaded.1.get? "LOG_LEVEL" = some "debug" := by
    rw [hmerged]
    decide +kernel
  have htimes : loaded.1.filled? "PW_BARRIER_TIMEOUT" = none ∧
      loaded.1.filled? "PW_POLL_INTERVAL" = none := by decide +kernel
  have hshown : loaded.1.filled? "ENDPOINT" = none ∧ loaded.1.filled? "LOG_LEVEL" = some "debug" ∧
      loaded.1.filled? "OVERLORD_PRIVKEY" = none ∧
      loaded.1.filled? "OVERLOAD_PRIVKEY" = some "//Bob" := by decide +kernel
  refine ⟨hendpoint, hlevel, hagain true fun _ => rfl, _,
    (htold _).mpr ⟨.decimal false 60 0, .decimal false 1 (-1), ?_, ?_, rfl⟩, ?_, ?_, ?_⟩
  · rw [Reads, htimes.1]
  · rw [Reads, htimes.2]
  · rw [told, hshown.1]
    rfl
  · rw [told, hshown.2.1]
    exact congrArg Value.text (by decide +kernel)
  · rw [told, hshown.2.2.1, hshown.2.2.2]
    rfl

/-- A binding file whose first name has an equals sign in it. -/
def unholdable : Files where
  texts := ⟨[(".env", "'A=B'=c\nENDPOINT=ws://x\n")]⟩

set_option maxRecDepth 10000 in
/-- **A name that the system cannot hold keeps others out**: two bindings have values and are absent
from an empty environment, neither is added, and loading fails. -/
theorem unholdable_name_adds_nothing :
    let bs := Environment.found .empty unholdable true
    let loaded := load (τ := Value) .empty unholdable true
    Environment.bound? bs "A=B" = some "c" ∧ Environment.bound? bs "ENDPOINT" = some "ws://x" ∧
      loaded.1.get? "A=B" = none ∧ loaded.1.get? "ENDPOINT" = none ∧
      ∃ f, loaded.2 = .error f ∧ f.kind = "ValueError" := by
  intro bs loaded
  refine ⟨by decide +kernel, by decide +kernel, by decide +kernel, by decide +kernel, ?_⟩
  have hkind : (match loaded.2 with
    | .error f => f.kind
    | .ok _ => "") = "ValueError" := by decide +kernel
  cases hout : loaded.2 with
  | error f =>
    rw [hout] at hkind
    exact ⟨f, rfl, hkind⟩
  | ok s =>
    rw [hout] at hkind
    exact absurd (show "" = "ValueError" from hkind) (by decide)

end Settings

end Campaign
