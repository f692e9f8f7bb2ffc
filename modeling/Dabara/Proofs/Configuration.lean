import Dabara.Config

set_option autoImplicit false

namespace Dabara

namespace Setting

def theme? : Setting → Option String
  | .theme name => some name
  | _ => none

def tabWidth? : Setting → Option Int
  | .tabWidth width => some width
  | _ => none

def classPrefix? : Setting → Option String
  | .classPrefix text => some text
  | _ => none

def lineNumbers? : Setting → Option Bool
  | .lineNumbers shown => some shown
  | _ => none

end Setting

namespace Settings

/-- A field that each change either gives a new value or leaves alone has the value that the last
change of it gave. -/
theorem applyAll_field {α β : Type} (field : Settings → β) (argument : Setting → Option α)
    (effect : α → β)
    (one : ∀ settings change,
      field (settings.apply change) = (argument change).elim (field settings) effect)
    (settings : Settings) (changes : List Setting) :
    field (settings.applyAll changes) =
      (changes.filterMap argument).getLast?.elim (field settings) effect := by
  induction changes generalizing settings with
  | nil => rfl
  | cons change rest ih =>
      rw [applyAll_cons, ih, one]
      cases sets : argument change with
      | none => rw [List.filterMap_cons_none sets, Option.elim_none]
      | some value =>
          rw [List.filterMap_cons_some sets, List.getLast?_cons]
          cases (rest.filterMap argument).getLast? <;> rfl

theorem clampTab_bounds (width : Int) : 1 ≤ clampTab width ∧ clampTab width ≤ 16 := by
  unfold clampTab
  omega

end Settings

namespace Script

def Call.setting? : Call → Option Setting
  | .set change => some change
  | _ => none

/-- A process goes on for a while: it makes calls, each of which is answered at once, and what is
left of it then stands at other settings. -/
inductive Process.Steps {α : Type} :
    Process α → Settings → List Call → Process α → Settings → Prop
  | none (process : Process α) (settings : Settings) : Steps process settings [] process settings
  | ask {call : Call} {next : call.Reply → Process α} {before after : Settings}
      {calls : List Call} {left : Process α}
      (later : Steps (next (before.answer call).2) (before.answer call).1 calls left after) :
      Steps (.ask call next) before (call :: calls) left after
  | write {text : Text} {next : Process α} {before after : Settings} {calls : List Call}
      {left : Process α} (later : Steps next before calls left after) :
      Steps (.write text next) before calls left after

theorem answer_settings (settings : Settings) (call : Call) :
    (settings.answer call).1 = settings.applyAll call.setting?.toList := by
  cases call <;> rfl

/-- At any moment the settings are those at the start with what the calls since then set. -/
theorem Process.Steps.settings_eq {α : Type} {process left : Process α} {before after : Settings}
    {calls : List Call} (steps : process.Steps before calls left after) :
    after = before.applyAll (calls.filterMap Call.setting?) := by
  induction steps with
  | none => rfl
  | @ask call _ before _ calls _ _ ih =>
      rw [ih, answer_settings, ← Settings.applyAll_append]
      cases sets : call.setting? with
      | none => rw [List.filterMap_cons_none sets]; rfl
      | some setting => rw [List.filterMap_cons_some sets]; rfl
  | write _ ih => exact ih

/-- A process comes to its end in one way only. -/
theorem Process.steps_done_iff {α : Type} (process : Process α) (before after : Settings)
    (calls : List Call) (result : α) :
    process.Steps before calls (.done result) after ↔
      (process.run before).calls = calls ∧ (process.run before).result = result ∧
        (process.run before).settings = after := by
  induction process generalizing before calls with
  | done found =>
      constructor
      · rintro ⟨⟩
        exact ⟨rfl, rfl, rfl⟩
      · rintro ⟨rfl, rfl, rfl⟩
        exact .none _ _
  | ask call next ih =>
      constructor
      · rintro (_ | later)
        obtain ⟨rfl, ended⟩ := (ih _ _ _).mp later
        exact ⟨rfl, ended⟩
      · rintro ⟨rfl, ended⟩
        exact .ask ((ih _ _ _).mpr ⟨rfl, ended⟩)
  | write text next ih =>
      constructor
      · rintro (_ | _ | later)
        exact (ih _ _).mp later
      · intro ended
        exact .write ((ih _ _).mpr ended)

end Script

namespace Config

open Script (Call Engine)

/-- What the last of some calls set that set such a thing. -/
def lastSet {α : Type} (argument : Setting → Option α) (calls : List Call) : Option α :=
  (calls.filterMap fun call => call.setting?.bind argument).getLast?

/-- Settings that differ from earlier ones as calls made in between require: each is what the last
call that set it was given, a tab width below one or above sixteen brought to that bound. -/
structure Follows (calls : List Call) (before after : Settings) : Prop where
  theme : after.theme = (lastSet Setting.theme? calls).getD before.theme
  classPrefix : after.classPrefix = (lastSet Setting.classPrefix? calls).getD before.classPrefix
  lineNumbers : after.lineNumbers = (lastSet Setting.lineNumbers? calls).getD before.lineNumbers
  tabWidth : after.tabWidth =
    (lastSet Setting.tabWidth? calls).elim before.tabWidth fun width => (max 1 (min width 16)).toNat

theorem follows_applyAll (calls : List Call) (settings : Settings) :
    Follows calls settings (settings.applyAll (calls.filterMap Call.setting?)) := by
  have last : ∀ {α β : Type} (field : Settings → β) (argument : Setting → Option α)
      (effect : α → β),
      (∀ settings change,
        field (settings.apply change) = (argument change).elim (field settings) effect) →
      field (settings.applyAll (calls.filterMap Call.setting?)) =
        (lastSet argument calls).elim (field settings) effect := by
    intro α β field argument effect one
    rw [Settings.applyAll_field field argument effect one, List.filterMap_filterMap]
    rfl
  constructor
  · rw [last Settings.theme Setting.theme? id (by rintro _ (_ | _ | _ | _) <;> rfl)]
    cases lastSet Setting.theme? calls <;> rfl
  · rw [last Settings.classPrefix Setting.classPrefix? id (by rintro _ (_ | _ | _ | _) <;> rfl)]
    cases lastSet Setting.classPrefix? calls <;> rfl
  · rw [last Settings.lineNumbers Setting.lineNumbers? id (by rintro _ (_ | _ | _ | _) <;> rfl)]
    cases lastSet Setting.lineNumbers? calls <;> rfl
  · exact last Settings.tabWidth Setting.tabWidth? Settings.clampTab
      (by rintro _ (_ | _ | _ | _) <;> rfl)

theorem Follows.tabWidth_bounds {calls : List Call} {after : Settings}
    (follows : Follows calls .usual after) : 1 ≤ after.tabWidth ∧ after.tabWidth ≤ 16 := by
  rw [follows.tabWidth]
  cases lastSet Setting.tabWidth? calls with
  | none => decide
  | some width => exact Settings.clampTab_bounds width

/-- A source that is loaded, with the disk as it then is. The engine may have its reasons to do
other things with the same script at another time. -/
structure Request where
  engine : Engine
  disk : Disk
  source : Source

def loadAll (settings : Settings) (requests : List Request) : Settings :=
  requests.foldl (fun settings request =>
    (load request.disk settings request.source request.engine).1) settings

/-- The text of the source that is loaded, if it has one. -/
inductive Request.Holds : Request → Text → Prop
  | script (engine : Engine) (disk : Disk) (text : Text) : Holds ⟨engine, disk, .script text⟩ text
  | file {engine : Engine} {disk : Disk} {path : String} {text : Text}
      (read : disk.readText path = .ok text) : Holds ⟨engine, disk, .file path⟩ text

/-- What loading a source comes to: the calls that are made, the problem that is run into and the
settings that are left behind. Those of a script that fails are the ones at which it stopped. -/
inductive Request.Executes (request : Request) (before : Settings) :
    List Call → Option Problem → Settings → Prop
  | unreadable {path : String} {failure : Failure} (file : request.source = .file path)
      (unread : request.disk.readText path = .error failure) :
      Executes request before [] (some (.unreadable path failure)) before
  | malformed {text : Text} (held : request.Holds text) (refused : request.engine text = none) :
      Executes request before [] (some .malformed) before
  | failed {text : Text} {process : Script.Process Script.Ending} {calls : List Call}
      {after : Settings} (held : request.Holds text) (begun : request.engine text = some process)
      (steps : process.Steps before calls (.done .failed) after) :
      Executes request before calls (some .failed) after
  | completed {text : Text} {process : Script.Process Script.Ending} {calls : List Call}
      {after : Settings} (held : request.Holds text) (begun : request.engine text = some process)
      (steps : process.Steps before calls (.done .completed) after) :
      Executes request before calls none after

def Request.loaded (request : Request) (settings : Settings) : Loaded :=
  loadWith request.engine request.disk settings request.source

theorem Request.loaded_of_holds {request : Request} {text : Text} (held : request.Holds text)
    (settings : Settings) : request.loaded settings = evaluate request.engine settings text := by
  cases held with
  | script _ _ _ => rfl
  | file read =>
      rw [loaded, loadWith]
      dsimp only
      rw [read]

theorem Request.holds_or_unread (request : Request) :
    (∃ text, request.Holds text) ∨
      ∃ path failure, request.source = .file path ∧
        request.disk.readText path = .error failure := by
  obtain ⟨engine, disk, source⟩ := request
  cases source with
  | script text => exact .inl ⟨text, .script engine disk text⟩
  | file path =>
      cases read : disk.readText path with
      | ok text => exact .inl ⟨text, .file read⟩
      | error failure => exact .inr ⟨path, failure, rfl, read⟩

theorem Request.loaded_of_unread {request : Request} {path : String} {failure : Failure}
    (file : request.source = .file path) (unread : request.disk.readText path = .error failure)
    (settings : Settings) :
    request.loaded settings = .stopped settings (.unreadable path failure) := by
  rw [loaded, file, loadWith, unread]

/-- Loading does what can be done with a source, and there is nothing else that can be done. -/
theorem Request.executes_iff (request : Request) (before after : Settings) (calls : List Call)
    (problem : Option Problem) :
    request.Executes before calls problem after ↔
      (request.loaded before).calls = calls ∧ (request.loaded before).problem = problem ∧
        (request.loaded before).settings = after := by
  constructor
  · intro executes
    cases executes with
    | unreadable file unread =>
        rw [loaded_of_unread file unread]
        exact ⟨rfl, rfl, rfl⟩
    | malformed held refused =>
        rw [loaded_of_holds held, evaluate, refused]
        exact ⟨rfl, rfl, rfl⟩
    | failed held begun steps =>
        obtain ⟨rfl, ended, rfl⟩ := (Script.Process.steps_done_iff _ _ _ _ _).mp steps
        rw [loaded_of_holds held, evaluate, begun]
        exact ⟨rfl, by dsimp only; rw [ended]; rfl, rfl⟩
    | completed held begun steps =>
        obtain ⟨rfl, ended, rfl⟩ := (Script.Process.steps_done_iff _ _ _ _ _).mp steps
        rw [loaded_of_holds held, evaluate, begun]
        exact ⟨rfl, by dsimp only; rw [ended]; rfl, rfl⟩
  · rintro ⟨rfl, rfl, rfl⟩
    rcases request.holds_or_unread with ⟨text, held⟩ | ⟨path, failure, file, unread⟩
    · rw [loaded_of_holds held, evaluate]
      cases begun : request.engine text with
      | none => exact .malformed held begun
      | some process =>
          have steps := (process.steps_done_iff before _ _ _).mpr ⟨rfl, rfl, rfl⟩
          dsimp only
          cases ended : (process.run before).result with
          | completed => exact .completed held begun (ended ▸ steps)
          | failed => exact .failed held begun (ended ▸ steps)
    · rw [loaded_of_unread file unread]
      exact .unreadable file unread

theorem Request.Executes.settings_eq {request : Request} {before after : Settings}
    {calls : List Call} {problem : Option Problem}
    (executes : request.Executes before calls problem after) :
    after = before.applyAll (calls.filterMap Call.setting?) := by
  cases executes with
  | unreadable _ _ => rfl
  | malformed _ _ => rfl
  | failed _ _ steps => exact steps.settings_eq
  | completed _ _ steps => exact steps.settings_eq

/-- The same for sources that are loaded in turn: `made` holds the calls of each. -/
def ExecutesAll : Settings → List Request → List (List Call) → Prop
  | _, [], made => made = []
  | settings, request :: rest, made =>
      let after := load request.disk settings request.source request.engine
      ∃ calls more, made = calls :: more ∧ request.Executes settings calls after.2 after.1 ∧
        ExecutesAll after.1 rest more

theorem ExecutesAll.loadAll_eq {settings : Settings} {requests : List Request}
    {made : List (List Call)} (executes : ExecutesAll settings requests made) :
    loadAll settings requests = settings.applyAll (made.flatten.filterMap Call.setting?) := by
  induction requests generalizing settings made with
  | nil =>
      obtain rfl : made = [] := executes
      rfl
  | cons request rest ih =>
      obtain ⟨calls, more, rfl, first, later⟩ := executes
      rw [List.flatten_cons, List.filterMap_append, Settings.applyAll_append, ← first.settings_eq]
      exact ih later

theorem exists_executesAll (settings : Settings) (requests : List Request) :
    ∃ made, ExecutesAll settings requests made ∧
      ∀ other, ExecutesAll settings requests other → other = made := by
  induction requests generalizing settings with
  | nil => exact ⟨[], rfl, fun _ other => other⟩
  | cons request rest ih =>
      obtain ⟨more, later, only⟩ := ih (request.loaded settings).settings
      refine ⟨(request.loaded settings).calls :: more, ?_, ?_⟩
      · exact ⟨_, more, rfl, (request.executes_iff _ _ _ _).mpr ⟨rfl, rfl, rfl⟩, later⟩
      · rintro made ⟨calls, others, rfl, first, second⟩
        obtain ⟨rfl, -, -⟩ := (request.executes_iff _ _ _ _).mp first
        rw [only others second]

/-- Whatever sources are loaded, and whatever any engine makes of them: there is one list of calls
that were made, and the settings are the usual ones changed by these, each being what the last call
that set it was given; a tab width is always between one and sixteen. -/
theorem loadAll_follows_calls (requests : List Request) :
    ∃ made, ExecutesAll .usual requests made ∧
      (∀ other, ExecutesAll .usual requests other → other = made) ∧
      Follows made.flatten .usual (loadAll .usual requests) ∧
      1 ≤ (loadAll .usual requests).tabWidth ∧ (loadAll .usual requests).tabWidth ≤ 16 := by
  obtain ⟨made, executes, only⟩ := exists_executesAll .usual requests
  have follows : Follows made.flatten .usual (loadAll .usual requests) := by
    rw [executes.loadAll_eq]
    exact follows_applyAll made.flatten .usual
  exact ⟨made, executes, only, follows, follows.tabWidth_bounds⟩

-- A script that fails keeps what it has set until then.
example :
    load .empty .usual (.script "set_tab_width(100); throw 1; set_tab_width(3)".toList) =
      ({ Settings.usual with tabWidth := 16 }, some .failed) := by
  decide +kernel

end Config

end Dabara
