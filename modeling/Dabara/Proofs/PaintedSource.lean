import Dabara.Proofs.Screen
import Dabara.Proofs.Segments
import Dabara.Terminal.Paint
import Dabara.Theme.Builtin

set_option autoImplicit false

namespace Dabara

/-- A character of fragments that are put together has the category of the token at its first
byte. -/
theorem Fragment.getElem?_tagged (offset : Nat) {parts : List Fragment} {index : Nat} {c : Char}
    (present : (join parts)[index]? = some c) :
    ∃ token, (locate offset parts).filter
        (·.covers (offset + byteLength ((join parts).take index))) = [token] ∧
      (tagged parts)[index]? = some (c, token.category) := by
  induction parts generalizing offset index with
  | nil => simp at present
  | cons part rest ih =>
      have path : Contiguous (offset + byteLength part.text)
          (locate (offset + byteLength part.text) rest) _ := contiguous_locate _ rest
      rw [join_cons] at present
      rw [join_cons, locate_cons, tagged_cons]
      -- A character of the first fragment is in its token and, since the others stand behind it, in
      -- no other.
      by_cases inside : index < part.text.length
      · rw [List.getElem?_append_left inside] at present
        rw [List.take_append_of_le_length (Nat.le_of_lt inside)]
        have before := byteLength_take_lt inside
        have here : Token.covers (offset + byteLength (part.text.take index)) ⟨part, offset⟩ =
            true := by
          rw [Token.covers_iff, Token.stop]
          dsimp only
          omega
        refine ⟨⟨part, offset⟩, ?_, ?_⟩
        · rw [List.filter_cons_of_pos here, path.filter_covers_outside (Or.inl (by omega))]
        · rw [List.getElem?_append_left (by simpa using inside), List.getElem?_map, present]
          rfl
      · rw [List.getElem?_append_right (by omega)] at present
        obtain ⟨token, only, found⟩ := ih (offset + byteLength part.text) present
        rw [List.take_append, List.take_of_length_le (by omega), byteLength_append,
          ← Nat.add_assoc]
        have past : ¬ Token.covers (offset + byteLength part.text +
            byteLength ((join rest).take (index - part.text.length))) ⟨part, offset⟩ = true := by
          rw [Token.covers_iff, Token.stop]
          dsimp only
          omega
        refine ⟨token, ?_, ?_⟩
        · rw [List.filter_cons_of_neg past, only]
        · rw [List.getElem?_append_right (by simpa using inside), List.length_map, found]

theorem Fragment.map_fst_tagged (parts : List Fragment) :
    (tagged parts).map Prod.fst = join parts := by
  induction parts with
  | nil => rfl
  | cons part rest ih => simp [ih, Function.comp_def]

namespace Terminal

/-- The pen for text of a category: the style of a theme on the terminal's own background, and the
usual pen for plain text. -/
def Pen.ofCategory (theme : Theme) (category : Category) : Pen :=
  if category = .plain then .usual
  else
    { foreground := some (theme.styleFor category).foreground
      background := none
      bold := (theme.styleFor category).bold
      italic := (theme.styleFor category).italic }

def inked (theme : Theme) (mark : Char × Category) : Cell :=
  ⟨mark.1, .ofCategory theme mark.2⟩

theorem map_cell_placed (row column : Nat) (cells : List Cell) :
    (placed row column cells).map Placed.cell = cells := by
  induction cells generalizing column with
  | nil => rfl
  | cons cell rest ih => simp [placed, ih]

/-- A fragment is printed with the pen of its category, which is put away behind it. -/
theorem performAll_paintFragment (theme : Theme) (part : Fragment) {screen : Screen}
    (ready : screen.pen = .usual) :
    screen.performAll (paintFragment theme part) =
      screen.stamp (part.text.map (⟨·, .ofCategory theme part.category⟩)) .usual := by
  obtain ⟨row, column, pen, marks⟩ := screen
  obtain rfl : pen = .usual := ready
  unfold paintFragment Pen.ofCategory
  by_cases plain : part.category = .plain
  · rw [plain]
    rfl
  · rw [Category.isPlain, decide_eq_false plain, if_neg plain, if_neg Bool.false_ne_true,
      Screen.performAll_append, Screen.performAll_select]
    rfl

theorem performAll_paintFragments (theme : Theme) (parts : List Fragment) {screen : Screen}
    (ready : screen.pen = .usual) :
    screen.performAll (parts.flatMap (paintFragment theme)) =
      screen.stamp ((Fragment.tagged parts).map (inked theme)) .usual := by
  induction parts generalizing screen with
  | nil =>
      rw [← ready]
      exact screen.stamp_nil.symm
  | cons part rest ih =>
      have same : part.text.map (⟨·, .ofCategory theme part.category⟩) =
          (part.text.map (·, part.category)).map (inked theme) := by
        rw [List.map_map]
        rfl
      rw [List.flatMap_cons, Screen.performAll_append, performAll_paintFragment theme part ready,
        ih rfl, Screen.stamp_stamp, same, Fragment.tagged_cons, List.map_append]

theorem performAll_paint (theme : Theme) (source : Text) {screen : Screen}
    (ready : screen.pen = .usual) :
    screen.performAll (paint theme source) =
      screen.stamp ((Fragment.tagged (fragments source)).map (inked theme) ++
        [⟨'\n', .usual⟩]) .usual := by
  rw [paint, Screen.performAll_append, performAll_paintFragments theme _ ready,
    ← Screen.stamp_stamp _ _ _ .usual]
  rfl

theorem clean_paintFragment (theme : Theme) {part : Fragment} (clean : '\x1b' ∉ part.text) :
    Clean (paintFragment theme part) := by
  unfold paintFragment
  split
  · simpa [Command.printed] using clean
  · simpa [clean_select, Command.printed] using clean

/-- No sequence begins in what is printed of a source in which none begins. -/
theorem clean_paint (theme : Theme) {source : Text} (clean : '\x1b' ∉ source) :
    Clean (paint theme source) := by
  rw [paint, clean_append]
  refine ⟨?_, by simp [Command.printed]⟩
  intro command member
  obtain ⟨part, listed, printed⟩ := List.mem_flatMap.mp member
  refine clean_paintFragment theme ?_ command printed
  intro inside
  apply clean
  rw [← join_fragments source]
  exact List.mem_flatMap.mpr ⟨part, listed, inside⟩

/-- What a terminal shows of a colored source: its characters and a line feed, each character with
the pen of the one token that it belongs to, and the line feed with the usual pen. -/
structure ShowsSource (theme : Theme) (source : Text) (cells : List Cell) : Prop where
  characters : cells.map Cell.char = source ++ ['\n']
  pens : ∀ index c, source[index]? = some c →
    ∃ token, (scan source).filter (·.covers (byteLength (source.take index))) = [token] ∧
      cells[index]? = some ⟨c, .ofCategory theme token.category⟩
  last : cells[source.length]? = some ⟨'\n', .usual⟩

theorem showsSource_inked (theme : Theme) (source : Text) :
    ShowsSource theme source
      ((Fragment.tagged (fragments source)).map (inked theme) ++ [⟨'\n', .usual⟩]) := by
  have letters : ((Fragment.tagged (fragments source)).map (inked theme)).map Cell.char =
      source := by
    rw [List.map_map]
    exact (Fragment.map_fst_tagged _).trans (join_fragments source)
  have length : ((Fragment.tagged (fragments source)).map (inked theme)).length =
      source.length := by
    rw [← List.length_map Cell.char, letters]
  constructor
  · rw [List.map_append, letters]
    rfl
  · intro index c present
    have inside := (List.getElem?_eq_some_iff.mp present).1
    have listed : (Fragment.join (fragments source))[index]? = some c := by
      rw [join_fragments, present]
    obtain ⟨token, only, found⟩ := Fragment.getElem?_tagged 0 listed
    rw [join_fragments, Nat.zero_add] at only
    refine ⟨token, only, ?_⟩
    rw [List.getElem?_append_left (by omega), List.getElem?_map, found]
    rfl
  · rw [← length, List.getElem?_concat_length]

/-- A terminal that reads a colored source shows it in the styles of its tokens, and is left with
its usual pen. -/
theorem paint_shows_source (theme : Theme) {source : Text} (clean : '\x1b' ∉ source) :
    ∃ screen, Reader.read ⟨.text, .blank .usual⟩ (encode (paint theme source)) = ⟨.text, screen⟩ ∧
      screen.pen = .usual ∧ ShowsSource theme source (screen.marks.map Placed.cell) := by
  have read := Reader.read_encode (.blank .usual) (clean_paint theme clean)
  rw [performAll_paint theme source rfl] at read
  refine ⟨_, read, rfl, ?_⟩
  rw [Screen.marks_stamp, Screen.blank, List.nil_append, map_cell_placed]
  exact showsSource_inked theme source

/-- A bold keyword, a string over two lines that is not closed, and plain text between them. -/
theorem paint_shows_source_keyword :
    '\x1b' ∉ "idan \"ƙ\nb".toList ∧
      ∃ screen, Reader.read ⟨.text, .blank .usual⟩
          (encode (paint Theme.gruvboxDark "idan \"ƙ\nb".toList)) = ⟨.text, screen⟩ ∧
        screen.pen = .usual ∧
        ShowsSource Theme.gruvboxDark "idan \"ƙ\nb".toList (screen.marks.map Placed.cell) := by
  have clean : '\x1b' ∉ "idan \"ƙ\nb".toList := by decide
  exact ⟨clean, paint_shows_source Theme.gruvboxDark clean⟩

end Terminal

end Dabara
