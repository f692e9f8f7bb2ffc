import Dabara.CommandLine.Plan

set_option autoImplicit false

namespace Dabara.CommandLine

namespace Task

def prints : Task → Bool
  | .edit _ => false
  | _ => true

def showsTheme : Task → Bool
  | .html _ page => page
  | .ansi _ | .css => true
  | .tokens _ | .samples | .edit _ => false

def showsPrefix : Task → Bool
  | .html _ _ | .css => true
  | .ansi _ | .tokens _ | .samples | .edit _ => false

def source (world : World) (task : Task) : Except Trouble Text :=
  match task.input? with
  | some input => readInput world input
  | none => .ok []

def output (settings : Settings) (task : Task) (source : Text) : Text :=
  match task with
  | .html input page => htmlOutput settings (themeOf settings.theme).1 input page source
  | .tokens _ => Token.listing (scan source)
  | .ansi _ => Terminal.encode (Terminal.paint (themeOf settings.theme).1 source)
  | .css => (themeOf settings.theme).1.stylesheet settings.classPrefix.toList
  | .samples => Sample.names.flatMap fun name => name.toList ++ ['\n']
  | .edit _ => []

/-- Settings that agree on what a task shows. -/
structure Agree (task : Task) (first second : Settings) : Prop where
  theme : task.showsTheme = true → first.theme = second.theme
  classPrefix : task.showsPrefix = true → first.classPrefix = second.classPrefix

/-- What is printed depends on the settings that are shown, and on no others. -/
theorem Agree.output_eq {task : Task} {first second : Settings} (agree : Agree task first second)
    (source : Text) : task.output first source = task.output second source := by
  cases task with
  | html input page =>
      have same : first.classPrefix = second.classPrefix := agree.classPrefix rfl
      unfold output htmlOutput
      dsimp only
      rw [same]
      split
      · next paged => rw [agree.theme paged]
      · rfl
  | tokens input => rfl
  | ansi input =>
      unfold output
      dsimp only
      rw [agree.theme rfl]
  | css =>
      unfold output
      dsimp only
      rw [agree.theme rfl, agree.classPrefix rfl]
  | samples => rfl
  | edit file => rfl

end Task

/-- What a task that prints comes to. -/
def conclusion (task : Task) (settings : Settings) (warnings : List Warning) :
    Except Trouble Text → Outcome
  | .ok source => ⟨0, task.output settings source, warnings, none⟩
  | .error trouble => ⟨1, [], warnings, some trouble.report⟩

/-- However a source was read, settings that agree on what is shown give the same output. -/
theorem Task.Agree.conclusion_output_eq {task : Task} {first second : Settings}
    (agree : task.Agree first second) (all others : List Warning) (source : Except Trouble Text) :
    (conclusion task first all source).output = (conclusion task second others source).output := by
  cases source with
  | ok source => exact agree.output_eq source
  | error trouble => rfl

theorem withInput_eq (world : World) (warnings : List Warning) (settings : Settings) (task : Task)
    {input : Input} (reads : task.input? = some input) :
    withInput world warnings input (task.output settings) =
      .finished (conclusion task settings (warnings ++ inputWarnings input)
        (task.source world)) := by
  have same : task.source world = readInput world input := by rw [Task.source, reads]
  rw [same]
  unfold withInput
  dsimp only
  split
  · next source read => rw [read]; rfl
  · next trouble unread => rw [unread]; rfl

theorem perform_of_prints {invocation : Invocation} (prints : invocation.task.prints = true)
    (world : World) (settings : Settings) (warnings : List Warning) :
    ∃ all, perform world invocation settings warnings =
      .finished (conclusion invocation.task settings all (invocation.task.source world)) := by
  unfold perform
  dsimp only
  cases shape : invocation.task with
  | html input page => exact ⟨_, withInput_eq world _ settings (.html input page) rfl⟩
  | tokens input => exact ⟨_, withInput_eq world _ settings (.tokens input) rfl⟩
  | ansi input => exact ⟨_, withInput_eq world _ settings (.ansi input) rfl⟩
  | css => exact ⟨_, rfl⟩
  | samples => exact ⟨_, rfl⟩
  | edit file =>
      rw [shape] at prints
      cases prints

/-- Source and settings of a run that prints, and what the engine wrote, decide on all but the
warnings. -/
theorem plan_of_prints {words : List String} {invocation : Invocation}
    (read : readWords words = .ok invocation) (prints : invocation.task.prints = true)
    (world : World) (engine : Script.Engine) :
    let loaded := loadedFor engine world invocation
    ∃ outcome all, plan world words engine = .finished outcome ∧
      outcome =
        let printed := conclusion invocation.task (settingsOf invocation loaded) all
          (invocation.task.source world)
        { printed with output := loaded.written ++ printed.output } := by
  intro loaded
  obtain ⟨all, performed⟩ := perform_of_prints prints world (settingsOf invocation loaded)
    (loaded.problem.map configWarning).toList
  refine ⟨_, all, ?_, rfl⟩
  rw [plan, read]
  dsimp only
  rw [performed]
  rfl

/-- Two runs of the same task with the same options on the same source. Scripts for settings may
stand in different files or in none, and hold anything. -/
structure SameButConfig (first second : World) (one other : Invocation) : Prop where
  task : one.task = other.task
  theme : one.theme = other.theme
  classPrefix : one.classPrefix = other.classPrefix
  input : first.input = second.input
  file : ∀ path, one.task.file? = some path → first.disk.read path = second.disk.read path

theorem Task.file?_of_input? {task : Task} {input : Input} (reads : task.input? = some input) :
    task.file? = input.file := by
  cases task <;> cases reads <;> rfl

/-- An input is read alike where the file that it names and standard input are the same. -/
theorem readInput_congr {first second : World} {input : Input}
    (standard : first.input = second.input)
    (file : ∀ path, input.file = some path → first.disk.read path = second.disk.read path) :
    readInput first input = readInput second input := by
  unfold readInput
  split
  · rfl
  · next path _ named => rw [Disk.readText, Disk.readText, file path named]
  · rw [standard]

theorem SameButConfig.source_eq {first second : World} {one other : Invocation}
    (same : SameButConfig first second one other) :
    one.task.source first = one.task.source second := by
  unfold Task.source
  split
  · next input reads =>
      apply readInput_congr same.input
      intro path named
      apply same.file
      rw [Task.file?_of_input? reads, named]
  · rfl

/-- Options that fix all that a task shows: the theme for painted text, the class prefix for bare
markup, both for a stylesheet and a page. -/
def Invocation.pinned (invocation : Invocation) : Bool :=
  match invocation.task with
  | .tokens _ | .samples => true
  | .ansi _ => invocation.theme.isSome
  | .html _ false => invocation.classPrefix.isSome
  | .html _ true | .css => invocation.theme.isSome && invocation.classPrefix.isSome
  | .edit _ => false

theorem theme_settingsOf {invocation : Invocation} {name : String}
    (given : invocation.theme = some name) (loaded : Config.Loaded) :
    (settingsOf invocation loaded).theme = name := by
  rw [settingsOf, given, Option.getD_some]

theorem classPrefix_settingsOf {invocation : Invocation} {text : String}
    (given : invocation.classPrefix = some text) (loaded : Config.Loaded) :
    (settingsOf invocation loaded).classPrefix = text := by
  rw [settingsOf, given, Option.getD_some]

theorem Invocation.isSome_of_pinned {invocation : Invocation} (pinned : invocation.pinned = true) :
    (invocation.task.showsTheme = true → invocation.theme.isSome = true) ∧
      (invocation.task.showsPrefix = true → invocation.classPrefix.isSome = true) := by
  unfold Invocation.pinned at pinned
  split at pinned
  all_goals
    next shape =>
      rw [shape]
      simp_all [Task.showsTheme, Task.showsPrefix]

/-- What options have fixed, no script changes. -/
theorem SameButConfig.agree {first second : World} {one other : Invocation}
    (same : SameButConfig first second one other) (pinned : one.pinned = true)
    (loaded another : Config.Loaded) :
    one.task.Agree (settingsOf one loaded) (settingsOf other another) := by
  obtain ⟨themed, prefixed⟩ := one.isSome_of_pinned pinned
  constructor
  · intro shown
    obtain ⟨name, given⟩ := Option.isSome_iff_exists.mp (themed shown)
    rw [theme_settingsOf given, theme_settingsOf (same.theme ▸ given)]
  · intro shown
    obtain ⟨text, given⟩ := Option.isSome_iff_exists.mp (prefixed shown)
    rw [classPrefix_settingsOf given, classPrefix_settingsOf (same.classPrefix ▸ given)]

/-- Of two runs that differ in their scripts alone, and in what an engine makes of them, both end,
with the same code and report. What they print is what the engine wrote, and then the output of the
command, which is the same if the settings agree on what is shown, as they do where options have
fixed it. So a script reaches the output past all options exactly through what its engine writes. -/
theorem output_eq_iff_written_eq {first second : World} {words others : List String}
    {one other : Invocation} (read : readWords words = .ok one)
    (readOther : readWords others = .ok other) (same : SameButConfig first second one other)
    (prints : one.task.prints = true) (engine another : Script.Engine) :
    let loaded := loadedFor engine first one
    let loadedOther := loadedFor another second other
    ∃ left right, plan first words engine = .finished left ∧
      plan second others another = .finished right ∧
      left.code = right.code ∧ left.report = right.report ∧
      (one.task.Agree (settingsOf one loaded) (settingsOf other loadedOther) →
        ∃ output, left.output = loaded.written ++ output ∧
          right.output = loadedOther.written ++ output) ∧
      (one.pinned = true →
        (left.output = right.output ↔ loaded.written = loadedOther.written)) := by
  intro loaded loadedOther
  have printsOther : other.task.prints = true := same.task ▸ prints
  obtain ⟨left, all, planned, leftEq⟩ := plan_of_prints read prints first engine
  obtain ⟨right, allOther, plannedOther, rightEq⟩ :=
    plan_of_prints readOther printsOther second another
  rw [← same.task, ← same.source_eq] at rightEq
  have shared : one.task.Agree (settingsOf one loaded) (settingsOf other loadedOther) →
      ∃ output, left.output = loaded.written ++ output ∧
        right.output = loadedOther.written ++ output := by
    intro agree
    exact ⟨_, congrArg Outcome.output leftEq, (congrArg Outcome.output rightEq).trans
      (congrArg _ (agree.conclusion_output_eq all allOther _).symm)⟩
  refine ⟨left, right, planned, plannedOther, ?_, ?_, shared, ?_⟩
  · rw [leftEq, rightEq]
    cases one.task.source first <;> rfl
  · rw [leftEq, rightEq]
    cases one.task.source first <;> rfl
  · intro pinned
    obtain ⟨output, leftOutput, rightOutput⟩ := shared (same.agree pinned loaded loadedOther)
    rw [leftOutput, rightOutput, List.append_left_inj]

/-- The digit one on standard input, and at the usual place a script or none. -/
def digitWorld (script : Option String) : World where
  disk :=
    match script with
    | some text => Disk.empty.add Config.usualPath (.file text.toUTF8)
    | none => Disk.empty
  input := "1".toUTF8
  usualConfig := some Config.usualPath

def listing : Invocation :=
  ⟨none, none, none, .tokens ⟨none, none⟩⟩

theorem digitWorld_same (script another : Option String) :
    SameButConfig (digitWorld script) (digitWorld another) listing listing := by
  refine ⟨rfl, rfl, rfl, rfl, ?_⟩
  rintro path named
  cases named

/-- A listing without a script, and with one that sets a theme and then fails. -/
theorem output_eq_iff_written_eq_failing :
    readWords ["tokens"] = .ok listing ∧
      SameButConfig (digitWorld none) (digitWorld (some "set_theme(\"nord\"); throw 1"))
        listing listing ∧
      ∃ left right, plan (digitWorld none) ["tokens"] = .finished left ∧
        plan (digitWorld (some "set_theme(\"nord\"); throw 1")) ["tokens"] = .finished right ∧
        left.code = right.code ∧ left.output = right.output := by
  have read : readWords ["tokens"] = .ok listing := rfl
  have same := digitWorld_same none (some "set_theme(\"nord\"); throw 1")
  obtain ⟨left, right, planned, plannedOther, code, _, _, output⟩ :=
    output_eq_iff_written_eq read read same rfl Script.engine Script.engine
  exact ⟨read, same, left, right, planned, plannedOther, code,
    (output rfl).mpr (by decide +kernel)⟩

/-- What a script has the engine write is printed before the listing, which no option can avoid. -/
theorem not_output_independent_of_config :
    ¬ ∀ (first second : World) (words others : List String) (one other : Invocation),
      readWords words = .ok one → readWords others = .ok other →
      SameButConfig first second one other → one.task.prints = true → one.pinned = true →
      ∀ left right, plan first words = .finished left → plan second others = .finished right →
        left.output = right.output := by
  intro always
  have read : readWords ["tokens"] = .ok listing := rfl
  have same := digitWorld_same (some "debug(1);") none
  obtain ⟨left, all, planned, leftEq⟩ :=
    plan_of_prints read rfl (digitWorld (some "debug(1);")) Script.engine
  obtain ⟨right, others, plannedOther, rightEq⟩ :=
    plan_of_prints read rfl (digitWorld none) Script.engine
  have equal := always _ _ _ _ _ _ read read same rfl rfl left right planned plannedOther
  rw [leftEq, rightEq, same.source_eq] at equal
  -- A listing shows no setting, so what is left of the two outputs is what the engines wrote.
  have agree := same.agree rfl (loadedFor Script.engine (digitWorld (some "debug(1);")) listing)
    (loadedFor Script.engine (digitWorld none) listing)
  dsimp only at equal
  rw [agree.conclusion_output_eq all others, List.append_left_inj] at equal
  exact absurd equal (by decide +kernel)

end Dabara.CommandLine
