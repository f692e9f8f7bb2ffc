import Dabara.Proofs.Boundary
import Dabara.Token

set_option autoImplicit false

namespace Dabara

namespace Fragment

theorem takeWhile_ne_nil {holds : Char → Bool} {text : Text}
    (starts : startsWith holds text = true) : text.takeWhile holds ≠ [] := by
  cases text with
  | nil => simp [startsWith] at starts
  | cons c rest =>
      have first : holds c = true := starts
      simp [first]

theorem startsWith_mono {holds wider : Char → Bool}
    (implies : ∀ c, holds c = true → wider c = true) {text : Text}
    (starts : startsWith holds text = true) : startsWith wider text = true := by
  cases text with
  | nil => simp [startsWith] at starts
  | cons c rest => exact implies c starts

theorem text_ne_nil_of_mem_quoted {rest : Text} {part : Fragment}
    (member : part ∈ (quoted rest).1) : part.text ≠ [] := by
  unfold quoted at member
  dsimp only at member
  split at member
  · rw [List.mem_singleton.mp member]
    simp
  · rw [List.mem_singleton.mp member]
    simp

theorem text_ne_nil_of_mem_method {rest : Text} {part : Fragment}
    (named : startsWith isIdentStart rest = true) (member : part ∈ (method rest).1) :
    part.text ≠ [] := by
  have name := takeWhile_ne_nil (startsWith_mono (fun _ => isIdentChar_of_isIdentStart) named)
  simp only [method, List.mem_cons, List.not_mem_nil, or_false] at member
  rcases member with rfl | rfl
  · simp
  · exact name

/-- Every rule takes at least one character for each fragment that it gives. -/
theorem text_ne_nil_of_mem_front {c : Char} {rest : Text} {part : Fragment}
    (member : part ∈ (front c rest).1) : part.text ≠ [] := by
  unfold front at member
  -- The cases of one fragment stand for themselves; a name behind a dot needs its first letter.
  repeat' split at member
  · rw [List.mem_singleton.mp member]
    simp
  · exact text_ne_nil_of_mem_quoted member
  · rw [List.mem_singleton.mp member]
    simp
  · rw [List.mem_singleton.mp member]
    simp
  · next dotted =>
      simp only [Bool.and_eq_true] at dotted
      exact text_ne_nil_of_mem_method dotted.2 member
  all_goals
    rw [List.mem_singleton.mp member]
    simp

end Fragment

theorem text_ne_nil_of_mem_fragments {source : Text} {part : Fragment}
    (member : part ∈ fragments source) : part.text ≠ [] := by
  fun_induction fragments source with
  | case1 => simp at member
  | case2 c rest cut ih =>
      rcases List.mem_append.mp member with first | later
      · exact Fragment.text_ne_nil_of_mem_front first
      · exact ih later

theorem locate_append (offset : Nat) (first second : List Fragment) :
    locate offset (first ++ second) =
      locate offset first ++ locate (offset + byteLength (Fragment.join first)) second := by
  induction first generalizing offset with
  | nil => rfl
  | cons part rest ih =>
      rw [List.cons_append, locate_cons, locate_cons, ih, Fragment.join_cons, byteLength_append,
        Nat.add_assoc, List.cons_append]

/-- Tokens that stand one directly behind the other between two offsets. -/
def Contiguous (start : Nat) : List Token → Nat → Prop
  | [], stop => start = stop
  | token :: rest, stop => token.start = start ∧ Contiguous token.stop rest stop

theorem contiguous_locate (offset : Nat) (parts : List Fragment) :
    Contiguous offset (locate offset parts) (offset + byteLength (Fragment.join parts)) := by
  induction parts generalizing offset with
  | nil => simp [Contiguous]
  | cons part rest ih =>
      refine ⟨rfl, ?_⟩
      have tail := ih (offset + byteLength part.text)
      rw [Fragment.join_cons, byteLength_append, ← Nat.add_assoc]
      exact tail

theorem Contiguous.adjacent {start stop : Nat} {tokens : List Token}
    (path : Contiguous start tokens stop) {index : Nat} {token next : Token}
    (this : tokens[index]? = some token) (behind : tokens[index + 1]? = some next) :
    next.start = token.stop := by
  induction tokens generalizing start index with
  | nil => simp at this
  | cons first rest ih =>
      cases index with
      | zero =>
          cases rest with
          | nil => simp at behind
          | cons second rest =>
              simp only [List.getElem?_cons_zero, Option.some.injEq] at this
              simp only [Nat.zero_add, List.getElem?_cons_succ, List.getElem?_cons_zero,
                Option.some.injEq] at behind
              rw [← this, ← behind]
              exact path.2.1
      | succ index =>
          rw [List.getElem?_cons_succ] at this behind
          exact ih path.2 this behind

theorem Contiguous.last {start stop : Nat} {tokens : List Token}
    (path : Contiguous start tokens stop) {token : Token}
    (last : tokens.getLast? = some token) : token.stop = stop := by
  induction tokens generalizing start with
  | nil => simp at last
  | cons first rest ih =>
      cases rest with
      | nil =>
          simp only [List.getLast?_singleton, Option.some.injEq] at last
          rw [← last]
          exact path.2
      | cons second rest =>
          rw [List.getLast?_cons_cons] at last
          exact ih path.2 last

theorem Contiguous.start_le {start stop : Nat} {tokens : List Token}
    (path : Contiguous start tokens stop) {token : Token} (member : token ∈ tokens) :
    start ≤ token.start := by
  induction tokens generalizing start with
  | nil => cases member
  | cons first rest ih =>
      obtain ⟨rfl, path⟩ := path
      rcases List.mem_cons.mp member with rfl | later
      · exact Nat.le_refl _
      · have behind : first.stop ≤ token.start := ih path later
        unfold Token.stop at behind
        omega

/-- Of two tokens the one that comes first stops no later than the other begins. -/
theorem Contiguous.pairwise {start stop : Nat} {tokens : List Token}
    (path : Contiguous start tokens stop) :
    tokens.Pairwise fun first second => first.stop ≤ second.start := by
  induction tokens generalizing start with
  | nil => exact .nil
  | cons first rest ih => exact .cons (fun _ member => path.2.start_le member) (ih path.2)

def Token.covers (offset : Nat) (token : Token) : Bool :=
  token.start ≤ offset && offset < token.stop

theorem Token.covers_iff (offset : Nat) (token : Token) :
    token.covers offset = true ↔ token.start ≤ offset ∧ offset < token.stop := by
  simp [Token.covers]

theorem Contiguous.le {start stop : Nat} {tokens : List Token}
    (path : Contiguous start tokens stop) : start ≤ stop := by
  induction tokens generalizing start with
  | nil => exact Nat.le_of_eq path
  | cons first rest ih =>
      obtain ⟨rfl, path⟩ := path
      have behind : first.stop ≤ stop := ih path
      unfold Token.stop at behind
      omega

/-- A byte outside the two ends belongs to no token. -/
theorem Contiguous.filter_covers_outside {start stop : Nat} {tokens : List Token}
    (path : Contiguous start tokens stop) {offset : Nat}
    (outside : offset < start ∨ stop ≤ offset) : tokens.filter (·.covers offset) = [] := by
  induction tokens generalizing start with
  | nil => rfl
  | cons first rest ih =>
      obtain ⟨rfl, path⟩ := path
      have ends := path.le
      have begins : first.start ≤ first.stop := Nat.le_add_right _ _
      have past : ¬ first.covers offset = true := by
        rw [first.covers_iff]
        omega
      rw [List.filter_cons_of_neg past]
      apply ih path
      omega

/-- Every byte between the two ends belongs to exactly one token. -/
theorem Contiguous.filter_covers {start stop : Nat} {tokens : List Token}
    (path : Contiguous start tokens stop) {offset : Nat} (lower : start ≤ offset)
    (upper : offset < stop) : ∃ token, tokens.filter (·.covers offset) = [token] := by
  induction tokens generalizing start with
  | nil =>
      have same : start = stop := path
      omega
  | cons first rest ih =>
      obtain ⟨rfl, path⟩ := path
      by_cases inside : offset < first.stop
      · refine ⟨first, ?_⟩
        have here : first.covers offset = true := (first.covers_iff offset).mpr ⟨lower, inside⟩
        rw [List.filter_cons_of_pos here, path.filter_covers_outside (Or.inl inside)]
      · have past : ¬ first.covers offset = true := by
          rw [first.covers_iff]
          omega
        obtain ⟨token, only⟩ := ih path (by omega)
        exact ⟨token, by rw [List.filter_cons_of_neg past, only]⟩

/-- A located token stands behind the fragments before its own. -/
theorem exists_split_of_mem_locate {offset : Nat} {parts : List Fragment} {token : Token}
    (member : token ∈ locate offset parts) :
    ∃ before after, parts = before ++ token.toFragment :: after ∧
      token.start = offset + byteLength (Fragment.join before) := by
  induction parts generalizing offset with
  | nil => simp at member
  | cons part rest ih =>
      rw [locate_cons] at member
      rcases List.mem_cons.mp member with rfl | later
      · exact ⟨[], rest, rfl, rfl⟩
      · obtain ⟨before, after, split, start⟩ := ih later
        refine ⟨part :: before, after, by rw [split]; rfl, ?_⟩
        rw [start, Fragment.join_cons, byteLength_append, Nat.add_assoc]

/-- A token of a source cuts it in three: what stands before, the token's text, what follows. -/
theorem exists_split_of_mem_scan {source : Text} {token : Token} (member : token ∈ scan source) :
    ∃ before after, source = before ++ token.text ++ after ∧ token.start = byteLength before := by
  obtain ⟨before, after, split, start⟩ := exists_split_of_mem_locate member
  refine ⟨Fragment.join before, Fragment.join after, ?_, by rw [start, Nat.zero_add]⟩
  rw [← join_fragments source, split]
  simp

theorem isBoundary_of_mem_scan {source : Text} {token : Token} (member : token ∈ scan source) :
    IsBoundary source token.start ∧ IsBoundary source token.stop := by
  obtain ⟨before, after, rfl, start⟩ := exists_split_of_mem_scan member
  constructor
  · rw [start, List.append_assoc]
    exact isBoundary_front before (token.text ++ after)
  · rw [Token.stop, start, ← byteLength_append]
    exact isBoundary_front (before ++ token.text) after

theorem contiguous_scan (source : Text) : Contiguous 0 (scan source) (byteLength source) := by
  have path := contiguous_locate 0 (fragments source)
  rwa [join_fragments, Nat.zero_add] at path

theorem flatMap_text_scan (source : Text) : (scan source).flatMap (·.text) = source := by
  have parts : (scan source).map Token.toFragment = fragments source :=
    map_toFragment_locate 0 (fragments source)
  calc
    (scan source).flatMap (·.text) = Fragment.join ((scan source).map Token.toFragment) := by
      rw [Fragment.join, List.flatMap_map]
    _ = source := by rw [parts, join_fragments]

/-- What it means that tokens cover a source: none is empty, they stand one behind the other from
the first byte to the last, on boundaries, and nothing is lost, added or moved. -/
structure Covers (source : Text) (tokens : List Token) : Prop where
  nonempty : ∀ token ∈ tokens, token.text ≠ []
  first : ∀ token, tokens.head? = some token → token.start = 0
  adjacent : ∀ index token next, tokens[index]? = some token → tokens[index + 1]? = some next →
    next.start = token.stop
  last : ∀ token, tokens.getLast? = some token → token.stop = byteLength source
  boundary : ∀ token ∈ tokens, IsBoundary source token.start ∧ IsBoundary source token.stop
  texts : tokens.flatMap (·.text) = source
  empty : tokens = [] ↔ source = []

/-- The tokens of every source cover it. -/
theorem scan_covers (source : Text) : Covers source (scan source) where
  nonempty := by
    intro token member
    obtain ⟨before, after, split, _⟩ := exists_split_of_mem_locate member
    exact text_ne_nil_of_mem_fragments (by rw [split]; simp)
  first := by
    intro token head
    have path := contiguous_scan source
    cases shape : scan source with
    | nil => simp [shape] at head
    | cons first rest =>
        rw [shape] at path head
        simp only [List.head?_cons, Option.some.injEq] at head
        rw [← head]
        exact path.1
  adjacent := fun _ _ _ this behind => (contiguous_scan source).adjacent this behind
  last := fun _ last => (contiguous_scan source).last last
  boundary := fun _ member => isBoundary_of_mem_scan member
  texts := flatMap_text_scan source
  empty := by
    constructor
    · intro none
      have whole := flatMap_text_scan source
      rw [none] at whole
      exact whole.symm
    · intro same
      subst same
      rw [scan, fragments_nil, locate_nil]

end Dabara
