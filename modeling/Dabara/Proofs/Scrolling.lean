import Dabara.CommandLine.Session
import Mathlib.Data.Nat.Dist

set_option autoImplicit false

namespace Dabara

namespace Editor

/-- An offset at which a line is among `height` visible lines. Where none is visible, the line need
only not be above the offset. -/
def Shows (line height offset : Nat) : Prop :=
  offset ≤ line ∧ (0 < height → line < offset + height)

/-- The offset is kept, or lowered to the line; but where the line is then still below the visible
lines, it becomes the last of them. -/
theorem nearestScroll_cases (line scroll height : Nat) :
    nearestScroll line scroll height = min line scroll ∧
        (0 < height → line < min line scroll + height) ∨
      nearestScroll line scroll height = line + 1 - height ∧
        0 < height ∧ min line scroll + height ≤ line := by
  unfold nearestScroll
  dsimp only
  split <;> split <;> omega

theorem shows_nearestScroll (line scroll height : Nat) :
    Shows line height (nearestScroll line scroll height) := by
  unfold Shows
  rcases nearestScroll_cases line scroll height with ⟨same, visible⟩ | ⟨same, positive, below⟩
  · rw [same]
    exact ⟨Nat.min_le_left line scroll, visible⟩
  · rw [same]
    omega

theorem nearestScroll_of_shows {line scroll height : Nat} (shows : Shows line height scroll) :
    nearestScroll line scroll height = scroll := by
  obtain ⟨above, below⟩ := shows
  rcases nearestScroll_cases line scroll height with ⟨same, _⟩ | ⟨_, positive, beyond⟩
  · rw [same, Nat.min_eq_right above]
  · have visible := below positive
    omega

/-- Every other offset that shows the line is farther away. -/
theorem dist_nearestScroll_lt {line scroll height offset : Nat} (shows : Shows line height offset)
    (other : offset ≠ nearestScroll line scroll height) :
    Nat.dist (nearestScroll line scroll height) scroll < Nat.dist offset scroll := by
  obtain ⟨above, below⟩ := shows
  unfold Nat.dist
  rcases nearestScroll_cases line scroll height with ⟨same, _⟩ | ⟨same, positive, beyond⟩
  · rw [same] at other ⊢
    omega
  · have visible := below positive
    rw [same] at other ⊢
    omega

/-- The sums that scrolling takes can be counted: the first line below the visible ones and, where
the cursor is there or farther down, the number of its line. -/
def ScrollCounted (editor : Editor) (height : Nat) : Prop :=
  let first := min editor.cursor.line editor.scroll
  0 < height → first + height < countLimit ∧
    (first + height ≤ editor.cursor.line → editor.cursor.line + 1 < countLimit)

variable {editor next : Editor} {height : Nat}

theorem adjustScroll?_eq_some_iff :
    editor.adjustScroll? height = some next ↔
      editor.ScrollCounted height ∧
        next = { editor with scroll := nearestScroll editor.cursor.line editor.scroll height } := by
  have least : (if editor.cursor.line < editor.scroll then editor.cursor.line else editor.scroll) =
      min editor.cursor.line editor.scroll := by
    split <;> omega
  have counted : ¬ (0 < height ∧
        (countLimit ≤ min editor.cursor.line editor.scroll + height ∨
          min editor.cursor.line editor.scroll + height ≤ editor.cursor.line ∧
            countLimit ≤ editor.cursor.line + 1)) ↔ editor.ScrollCounted height := by
    unfold ScrollCounted
    dsimp only
    omega
  unfold adjustScroll?
  dsimp only
  rw [least, Option.ite_none_left_eq_some, counted, Option.some.injEq, eq_comm (a := next)]

/-- What has been scrolled can be scrolled again. -/
theorem ScrollCounted.again (counted : editor.ScrollCounted height) :
    { editor with
      scroll := nearestScroll editor.cursor.line editor.scroll height }.ScrollCounted height := by
  intro positive
  obtain ⟨below, number⟩ := counted positive
  dsimp only
  rcases nearestScroll_cases editor.cursor.line editor.scroll height with
    ⟨same, visible⟩ | ⟨same, _, beyond⟩
  · rw [same]
    omega
  · have counts := number beyond
    rw [same]
    omega

/-- Where a line is visible, scrolling leaves the visible lines where they can be counted, and the
cursor on one of them. -/
theorem adjustScroll?_bounds (success : editor.adjustScroll? height = some next)
    (positive : 0 < height) :
    next.scroll + height < countLimit ∧ next.cursor.line < next.scroll + height := by
  obtain ⟨counted, rfl⟩ := adjustScroll?_eq_some_iff.mp success
  obtain ⟨above, visible⟩ := shows_nearestScroll editor.cursor.line editor.scroll height
  have below := (counted.again positive).1
  dsimp only at below ⊢
  rw [Nat.min_eq_right above] at below
  exact ⟨below, visible positive⟩

/-- What scrolling does: it changes the offset alone, to the nearest at which the cursor is visible;
a second time, or where the cursor is visible already, it does nothing. -/
structure Scrolls (editor : Editor) (height : Nat) (next : Editor) : Prop where
  only : next = { editor with scroll := next.scroll }
  shows : Shows editor.cursor.line height next.scroll
  nearest : ∀ offset, Shows editor.cursor.line height offset → offset ≠ next.scroll →
    Nat.dist next.scroll editor.scroll < Nat.dist offset editor.scroll
  again : next.adjustScroll? height = some next
  still : Shows editor.cursor.line height editor.scroll → next = editor

theorem scrolls_of_adjustScroll? (success : editor.adjustScroll? height = some next) :
    editor.Scrolls height next := by
  obtain ⟨counted, rfl⟩ := adjustScroll?_eq_some_iff.mp success
  have shows := shows_nearestScroll editor.cursor.line editor.scroll height
  refine ⟨rfl, shows, fun offset visible other => dist_nearestScroll_lt visible other, ?_, ?_⟩
  · rw [adjustScroll?_eq_some_iff]
    refine ⟨counted.again, ?_⟩
    dsimp only
    rw [nearestScroll_of_shows shows]
  · intro visible
    rw [nearestScroll_of_shows visible]

end Editor

namespace Terminal.View

def statusRow (view : View) : Nat :=
  view.height.toNat - 1

end Terminal.View

namespace CommandLine.Session

open Terminal (Command View)

/-- The session scrolled to its cursor, as it is drawn. -/
def scrolled? (session : Session) : Option Session :=
  (session.editor.adjustScroll? session.view.textHeight).map fun editor => { session with editor }

def frame? (session : Session) : Option (List Command) :=
  session.view.frame? session.theme session.editor

/-- A session is drawn once it has been scrolled, if its frame can be made. -/
theorem draw?_eq (session : Session) :
    session.draw? = session.scrolled?.bind fun ready => ready.frame?.map (ready, ·) := by
  unfold draw? scrolled?
  cases session.editor.adjustScroll? session.view.textHeight <;> rfl

theorem draw?_eq_some_iff {session drawn : Session} {commands : List Command} :
    session.draw? = some (drawn, commands) ↔
      session.scrolled? = some drawn ∧ drawn.frame? = some commands := by
  simp only [draw?_eq, Option.bind_eq_some_iff, Option.map_eq_some_iff, Prod.mk.injEq]
  constructor
  · rintro ⟨ready, scrolled, made, framed, rfl, rfl⟩
    exact ⟨scrolled, framed⟩
  · rintro ⟨scrolled, framed⟩
    exact ⟨drawn, scrolled, commands, framed, rfl, rfl⟩

theorem running_of_draw? {session drawn : Session} {commands : List Command}
    (success : session.draw? = some (drawn, commands)) :
    drawn.editor.running = session.editor.running := by
  obtain ⟨scrolled, _⟩ := draw?_eq_some_iff.mp success
  obtain ⟨editor, adjusted, rfl⟩ := Option.map_eq_some_iff.mp scrolled
  dsimp only
  rw [(Editor.scrolls_of_adjustScroll? adjusted).only]

/-- The session once it has been drawn, unless it is closed. -/
def opened? (session : Session) : Option Session :=
  match session.draw? with
  | none => none
  | some (drawn, _) => if drawn.editor.running then some drawn else none

/-- The session that is drawn next, once an event has been answered. -/
def successor? (session : Session) (event : Event) : Option Session :=
  session.opened?.bind (·.answer? event)

/-- The sessions that are drawn from the first frame on, each scrolled to its cursor. The last may
be one that cannot be drawn. -/
def renders (session : Session) : List Event → List Session
  | [] => session.scrolled?.toList
  | event :: rest =>
      session.scrolled?.toList ++ ((session.successor? event).map (renders · rest)).getD []

/-- What is drawn has just been scrolled. -/
theorem exists_scrolled?_of_mem_renders {session rendered : Session} {events : List Event}
    (member : rendered ∈ session.renders events) :
    ∃ before : Session, before.scrolled? = some rendered := by
  induction events generalizing session with
  | nil => exact ⟨session, Option.mem_toList.mp member⟩
  | cons event rest ih =>
      rcases List.mem_append.mp member with first | later
      · exact ⟨session, Option.mem_toList.mp first⟩
      · cases answered : session.successor? event with
        | none => simp [answered] at later
        | some after => exact ih (by simpa [answered] using later)

/-- A text that holds what commands write. -/
def Prints (text : Text) (commands : List Command) : Prop :=
  Terminal.encode commands <:+: text

theorem prints_of_within (front commands back : List Command) :
    Prints (Terminal.encode (front ++ commands ++ back)) commands := by
  rw [Prints, Terminal.encode_append, Terminal.encode_append]
  exact List.infix_append _ _ _

/-- What is printed from a session on that is to be drawn. -/
def framesFrom (session : Session) (events : List Event) : List Text :=
  match session.draw? with
  | none => []
  | some (drawn, commands) =>
      if drawn.editor.running then Terminal.encode commands :: (drawn.play events).frames
      else [Terminal.encode (commands ++ teardown)]

theorem frames_play_cons (session : Session) (event : Event) (rest : List Event) :
    (session.play (event :: rest)).frames =
      ((session.answer? event).map (framesFrom · rest)).getD [] := by
  rw [play, step?]
  cases session.answer? event with
  | none => rfl
  | some answered =>
      rw [Option.bind_some, Option.map_some, Option.getD_some, framesFrom]
      cases answered.draw? with
      | none => rfl
      | some after =>
          dsimp only
          split <;> rfl

/-- A frame that is printed is that of the session drawn, and an open session goes on from there. -/
theorem prints_framesFrom_of_later {session : Session} {events : List Event} {later : List Session}
    (goesOn : ∀ drawn, session.opened? = some drawn →
      List.Forall₂ Prints (drawn.play events).frames (later.filterMap frame?))
    (ends : session.opened? = none → later = []) :
    List.Forall₂ Prints (session.framesFrom events)
      ((session.scrolled?.toList ++ later).filterMap frame?) := by
  rw [opened?, draw?_eq] at goesOn ends
  rw [framesFrom, draw?_eq]
  cases scrolled : session.scrolled? with
  | none =>
      have none : later = [] := ends (by rw [scrolled]; rfl)
      simp [none]
  | some ready =>
      rw [scrolled, Option.bind_some] at goesOn ends
      cases drawn : ready.frame? with
      | none =>
          have none : later = [] := ends (by rw [drawn]; rfl)
          simp [none, drawn]
      | some commands =>
          rw [drawn] at goesOn ends
          by_cases running : ready.editor.running = true
          · have prints := goesOn ready (if_pos running)
            simpa [drawn, running, Prints] using prints
          · have none : later = [] := ends (if_neg running)
            simpa [drawn, running, none] using prints_of_within [] commands teardown

theorem prints_framesFrom (session : Session) (events : List Event) :
    List.Forall₂ Prints (session.framesFrom events)
      ((session.renders events).filterMap frame?) := by
  induction events generalizing session with
  | nil =>
      rw [renders, ← List.append_nil session.scrolled?.toList]
      exact prints_framesFrom_of_later (fun _ _ => .nil) (fun _ => rfl)
  | cons event rest ih =>
      rw [renders, successor?]
      apply prints_framesFrom_of_later
      · intro drawn opened
        rw [frames_play_cons, opened, Option.bind_some]
        cases drawn.answer? event with
        | none => exact .nil
        | some answered => exact ih answered
      · intro closed
        rw [closed]
        rfl

/-- What an open session prints are the frames of the sessions that it draws, one behind the
other. -/
theorem prints_transcript {session : Session} (opened : session.editor.running = true)
    (events : List Event) :
    List.Forall₂ Prints (session.transcript events).frames
      ((session.renders events).filterMap frame?) := by
  have printed := session.prints_framesFrom events
  rw [framesFrom] at printed
  rw [transcript]
  cases drawn : session.draw? with
  | none => simpa [drawn] using printed
  | some first =>
      obtain ⟨ready, commands⟩ := first
      have running : ready.editor.running = true := (running_of_draw? drawn).trans opened
      rw [drawn] at printed
      dsimp only at printed ⊢
      rw [if_pos running] at printed
      -- The first frame has the setup before it.
      generalize (session.renders events).filterMap frame? = frames at printed ⊢
      cases printed with
      | cons inside later =>
          refine .cons (inside.trans ?_) later
          rw [Terminal.encode_append]
          exact (List.suffix_append _ _).isInfix

theorem frame?_ne_none_of_scrolled {session drawn : Session} {commands : List Command}
    (success : session.draw? = some (drawn, commands)) :
    ∀ rendered ∈ session.scrolled?.toList, rendered.frame? ≠ none := by
  obtain ⟨scrolled, framed⟩ := draw?_eq_some_iff.mp success
  simp [scrolled, framed]

/-- If a session that has been drawn is played to a sound end, all that it draws can be made. -/
theorem frame?_ne_none_of_play {session drawn : Session} {commands : List Command}
    {events : List Event} (success : session.draw? = some (drawn, commands))
    (ends : drawn.editor.running = true → (drawn.play events).sound = true) :
    ∀ rendered ∈ session.renders events, rendered.frame? ≠ none := by
  induction events generalizing session drawn commands with
  | nil => exact frame?_ne_none_of_scrolled success
  | cons event rest ih =>
      intro rendered member
      rcases List.mem_append.mp member with now | later
      · exact frame?_ne_none_of_scrolled success rendered now
      · -- Something is drawn later, so the session was open and has answered the event.
        rw [successor?, opened?, success] at later
        dsimp only at later
        by_cases running : drawn.editor.running = true
        · have sound := ends running
          rw [if_pos running, Option.bind_some] at later
          rw [play, step?] at sound
          cases answered : drawn.answer? event with
          | none => simp [answered] at later
          | some reached =>
              rw [answered, Option.map_some, Option.getD_some] at later
              rw [answered, Option.bind_some] at sound
              cases again : reached.draw? with
              | none => simp [again] at sound
              | some after =>
                  rw [again] at sound
                  refine ih again ?_ rendered later
                  intro running
                  simpa [running] using sound
        · simp [running] at later

/-- An open session prints the frames of the sessions that it draws, one behind the other, and ends
well only if every one of them can be made. -/
structure Draws (session : Session) (events : List Event) : Prop where
  frames : List.Forall₂ Prints (session.transcript events).frames
    ((session.renders events).filterMap frame?)
  sound : (session.transcript events).sound = true →
    ∀ rendered ∈ session.renders events, rendered.frame? ≠ none

theorem draws_of_running {session : Session} (opened : session.editor.running = true)
    (events : List Event) : session.Draws events := by
  refine ⟨prints_transcript opened events, ?_⟩
  intro sound
  rw [transcript] at sound
  cases drawn : session.draw? with
  | none => simp [drawn] at sound
  | some first =>
      rw [drawn] at sound
      exact frame?_ne_none_of_play drawn fun _ => sound

/-- A surface that is drawn with the cursor not above the first visible line and, where there is
room for a line, above the status. -/
structure FollowsCursor (session : Session) : Prop where
  above : session.editor.scroll ≤ session.editor.cursor.line
  below : 2 ≤ session.view.height.toNat →
    session.editor.cursor.line - session.editor.scroll < session.view.statusRow

theorem followsCursor_of_scrolled? {before session : Session}
    (scrolled : before.scrolled? = some session) : session.FollowsCursor := by
  obtain ⟨editor, adjusted, rfl⟩ := Option.map_eq_some_iff.mp scrolled
  have scrolls := Editor.scrolls_of_adjustScroll? adjusted
  have cursor : editor.cursor = before.editor.cursor := by rw [scrolls.only]
  obtain ⟨above, visible⟩ := scrolls.shows
  rw [← cursor] at above visible
  refine ⟨above, ?_⟩
  intro tall
  have room : 0 < before.view.textHeight := Nat.sub_pos_of_lt tall
  exact Nat.sub_lt_left_of_lt_add above (visible room)

/-- Scrolling changes the offset alone, to the one nearest to the old at which the cursor is
visible, and does nothing a second time or where the cursor is visible already. Hence in every
session, whatever the events and the sizes of the terminal, each frame is drawn with the cursor not
above the first visible line and, from two rows on, above the status; and what an open session
prints are these frames. -/
theorem scroll_follows_cursor (editor : Editor) {height : Nat}
    (counted : editor.ScrollCounted height) (session : Session) (events : List Event) :
    (∃ next, editor.adjustScroll? height = some next ∧ editor.Scrolls height next) ∧
      (∀ rendered ∈ session.renders events, rendered.FollowsCursor) ∧
      (session.editor.running = true → session.Draws events) := by
  refine ⟨?_, ?_, fun opened => draws_of_running opened events⟩
  · have adjusted := Editor.adjustScroll?_eq_some_iff.mpr ⟨counted, rfl⟩
    exact ⟨_, adjusted, Editor.scrolls_of_adjustScroll? adjusted⟩
  · intro rendered member
    obtain ⟨before, scrolled⟩ := exists_scrolled?_of_mem_renders member
    exact followsCursor_of_scrolled? scrolled

/-- The cursor goes down by two lines; then the terminal shrinks to one visible line, and none. -/
theorem scroll_follows_cursor_third :
    let editor := Editor.ofBuffer (Buffer.ofText ['a', '\n', 'b', '\n', 'c']) 2
    let third := { editor with cursor := ⟨2, 0⟩ }
    let session : Session := ⟨Disk.empty, editor, ⟨10, 3, true⟩, Theme.nord⟩
    let events : List Event :=
      [.press .down, .press .down, .resize 10 2, .resize 10 1, .press .up, .resize 10 2]
    third.ScrollCounted 2 ∧
      (∃ next, third.adjustScroll? 2 = some next ∧ third.Scrolls 2 next) ∧
      (session.renders events).map (·.editor.scroll) = [0, 0, 1, 2, 2, 1, 1] ∧
      (∀ rendered ∈ session.renders events, rendered.FollowsCursor) ∧ session.Draws events := by
  intro editor third session events
  have counted : third.ScrollCounted 2 := fun _ => ⟨by decide, fun _ => by decide⟩
  obtain ⟨scrolls, follows, draws⟩ := scroll_follows_cursor third counted session events
  exact ⟨counted, scrolls, by decide +kernel, follows, draws rfl⟩

end CommandLine.Session

end Dabara
