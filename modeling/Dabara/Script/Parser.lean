import Dabara.Script.Term

set_option autoImplicit false

namespace Dabara.Script

def reservedWords : List String :=
  ["true", "false", "let", "const", "if", "else", "switch", "do", "while", "until", "loop", "for",
    "in", "continue", "break", "return", "throw", "try", "catch", "fn", "private", "import",
    "export", "as", "public", "protected", "super", "new", "use", "module", "package", "var",
    "static", "shared", "with", "is", "goto", "match", "case", "default", "void", "null", "nil",
    "spawn", "thread", "go", "sync", "async", "await", "yield", "this"]

/-- Words that can be names of methods only. -/
def methodWords : List String :=
  ["type_of", "call", "curry", "is_shared"]

/-- Words that can be names of functions only. -/
def functionWords : List String :=
  methodWords ++ ["print", "debug", "eval", "Fn", "is_def_var", "is_def_fn"]

def isVariableName (word : String) : Bool :=
  !(reservedWords.contains word || functionWords.contains word)

def maxDepth : Nat :=
  64

/-- What the place of a part of a script allows: how much deeper it may nest, whether a loop can be
left, and the variables in sight, the innermost first, with whether each is constant. -/
structure Surroundings where
  room : Nat
  inLoop : Bool
  names : List (String × Bool)

namespace Surroundings

def deeper (place : Surroundings) : Option Surroundings :=
  match place.room with
  | 0 => none
  | room + 1 => some { place with room := room }

def declare (place : Surroundings) (name : String) (constant : Bool) : Surroundings :=
  { place with names := (name, constant) :: place.names }

def loop (place : Surroundings) : Surroundings :=
  { place with inLoop := true }

def assignable (place : Surroundings) (name : String) : Bool :=
  place.names.lookup name != some true

end Surroundings

namespace Expression

/-- Whether an expression can be the test of a condition, as far as its shape tells. -/
def canTest : Expression → Bool
  | .literal (.bool _) => true
  | .literal _ => false
  | .array _ => false
  | _ => true

/-- Whether an expression can be what a loop goes through, as far as its shape tells. -/
def canIterate : Expression → Bool
  | .literal (.text _) => true
  | .literal _ => false
  | .both _ _ | .either _ _ => false
  | _ => true

/-- Whether an expression can be indexed by another, as far as their shapes tell. -/
def canIndex : Expression → Expression → Bool
  | .literal (.text _), position | .literal (.int _), position | .array _, position =>
      match position with
      | .literal (.int _) => true
      | .literal _ => false
      | .both _ _ | .either _ _ => false
      | _ => true
  | _, _ => true

/-- An expression with a minus sign in front. An integer that does not fit becomes a floating
number. -/
def negated : Expression → Expression
  | .literal (.int number) =>
      .literal ((Value.int? (-number)).getD (.float (Float.ofInt (-number))))
  | .literal (.float number) => .literal (.float (-number))
  | operand => .signed .minus operand

def affirmed : Expression → Expression
  | .literal (.int number) => .literal (.int number)
  | .literal (.float number) => .literal (.float number)
  | operand => .signed .plus operand

/-- The first link of what stands behind a point, and the links behind it. -/
def linksBehindPoint? : Expression → Option (List Link)
  | .read name _ => some [.property name]
  | .call name _ inputs => some [.method name inputs]
  | .access (.read name _) links => some (.property name :: links)
  | .access (.call name _ inputs) links => some (.method name inputs :: links)
  | _ => none

/-- An expression with links behind it. Those behind an index go on from there. -/
def follow : Expression → List Link → Expression
  | .access root links, more =>
      match links.getLast? with
      | some (.index _) => .access root (links ++ more)
      | _ => .access (.access root links) more
  | root, more => .access root more

end Expression

/-- What a sign between two operands makes of them. -/
inductive Joint
  | operate (operator : Operator)
  | both
  | either
  | orElse
  | within
  | outside

namespace Joint

/-- The meaning of a sign and its rank; a higher rank binds tighter. -/
def ofToken? : Token → Option (Joint × Nat)
  | .sign "||" => some (.either, 30)
  | .sign "|" => some (.operate .bitOr, 30)
  | .sign "^" => some (.operate .bitXor, 30)
  | .sign "&&" => some (.both, 60)
  | .sign "&" => some (.operate .bitAnd, 60)
  | .sign "==" => some (.operate .equal, 90)
  | .sign "!=" => some (.operate .differ, 90)
  | .word "in" => some (.within, 110)
  | .sign "!in" => some (.outside, 110)
  | .sign "<" => some (.operate .less, 130)
  | .sign "<=" => some (.operate .lessOrEqual, 130)
  | .sign ">" => some (.operate .greater, 130)
  | .sign ">=" => some (.operate .greaterOrEqual, 130)
  | .sign "??" => some (.orElse, 135)
  | .sign ".." => some (.operate .range, 140)
  | .sign "..=" => some (.operate .closedRange, 140)
  | .sign "+" => some (.operate .add, 150)
  | .sign "-" => some (.operate .subtract, 150)
  | .sign "*" => some (.operate .multiply, 180)
  | .sign "/" => some (.operate .divide, 180)
  | .sign "%" => some (.operate .remainder, 180)
  | .sign "**" => some (.operate .power, 190)
  | .sign "<<" => some (.operate .shiftLeft, 210)
  | .sign ">>" => some (.operate .shiftRight, 210)
  | _ => none

/-- Whether an operator goes together with the one to its right if both have its rank. -/
def bindsRight : Joint → Bool
  | .operate .power => true
  | _ => false

/-- The expression of a sign at a position between two operands, unless they cannot be its
operands. -/
def expression? (joint : Joint) (position : Position) (first second : Expression) :
    Option Expression :=
  let tests := first.canTest && second.canTest
  match joint with
  | .operate operator => some (.operate operator first second)
  | .both => if tests then some (.both first second) else none
  | .either => if tests then some (.either first second) else none
  | .orElse => some (.orElse first second)
  | .within => some (.call "contains" position [second, first])
  | .outside => some (.signed .not (.call "contains" position [second, first]))

end Joint

def assignment? : Token → Option (Option Operator)
  | .sign "=" => some none
  | .sign "+=" => some (some .add)
  | .sign "-=" => some (some .subtract)
  | .sign "*=" => some (some .multiply)
  | .sign "/=" => some (some .divide)
  | .sign "%=" => some (some .remainder)
  | .sign "**=" => some (some .power)
  | .sign "<<=" => some (some .shiftLeft)
  | .sign ">>=" => some (some .shiftRight)
  | .sign "&=" => some (some .bitAnd)
  | .sign "|=" => some (some .bitOr)
  | .sign "^=" => some (some .bitXor)
  | _ => none

def Link.isPart : Link → Bool
  | .method _ _ => false
  | _ => true

/-- The assignment to an expression, unless it cannot be assigned to. -/
def Statement.assignment? (place : Surroundings) (target : Expression)
    (operator : Option Operator) (value : Expression) : Option Statement :=
  match target with
  | .read name _ => if place.assignable name then some (.assign name operator value) else none
  | .access (.read name _) links =>
      if links.all Link.isPart then some (.assignPart name links operator value) else none
  | _ => none

/-- Whether a statement may stand without a semicolon behind it. -/
def Statement.isClosed : Statement → Bool
  | .block _ | .choose _ _ _ | .repeatWhile _ _ | .forEach _ _ _ _ => true
  | _ => false

/-- A reader: takes tokens from the front, unless the script is malformed. -/
abbrev Reader := StateT (List Token.Placed) Option

namespace Reader

def peek : Reader (Option Token) := fun tokens =>
  some (tokens.head?.map Token.Placed.token, tokens)

def position : Reader Position := fun tokens =>
  some ((tokens.head?.map Token.Placed.position).getD .start, tokens)

def skip : Reader Unit := fun tokens => some ((), tokens.tail)

def accept (name : String) : Reader Bool := fun tokens =>
  match tokens with
  | ⟨.sign found, _⟩ :: rest => if found = name then some (true, rest) else some (false, tokens)
  | _ => some (false, tokens)

def acceptWord (name : String) : Reader Bool := fun tokens =>
  match tokens with
  | ⟨.word found, _⟩ :: rest => if found = name then some (true, rest) else some (false, tokens)
  | _ => some (false, tokens)

def expect (name : String) : Reader Unit := do
  if ← accept name then pure () else failure

def expectWord (name : String) : Reader Unit := do
  if ← acceptWord name then pure () else failure

def variableName : Reader String := fun tokens =>
  match tokens with
  | ⟨.word name, _⟩ :: rest => if isVariableName name then some (name, rest) else none
  | _ => none

def ensure (holds : Bool) : Reader Unit :=
  if holds then pure () else failure

/-- Whether a statement that may have a value ends here without one. -/
def endsStatement : Reader Bool := fun tokens =>
  match tokens with
  | [] => some (true, tokens)
  | ⟨.sign name, _⟩ :: _ => some (name = ";" ∨ name = "\x7d", tokens)
  | _ => some (false, tokens)

/-- The rank of the operator that comes next, or zero. -/
def nextRank : Reader Nat := do
  match (← peek).bind Joint.ofToken? with
  | some (_, rank) => pure rank
  | none => pure 0

mutual

def expression (fuel : Nat) (place : Surroundings) : Reader Expression :=
  match fuel with
  | 0 => failure
  | fuel + 1 => do
      let place ← place.deeper
      let first ← operand fuel place
      operators fuel place 0 first

/-- The operators behind an operand that bind tighter than `rank`, with their operands. -/
def operators (fuel : Nat) (place : Surroundings) (rank : Nat) (first : Expression) :
    Reader Expression :=
  match fuel with
  | 0 => failure
  | fuel + 1 => do
      match (← peek).bind Joint.ofToken? with
      | none => pure first
      | some (joint, found) =>
          if found < rank || (found == rank && !joint.bindsRight) then pure first
          else
            let sign ← position
            skip
            let second ← operand fuel place
            let next ← nextRank
            let second ←
              if found < next || (found == next && joint.bindsRight) then
                operators fuel place found second
              else pure second
            let place ← place.deeper
            let whole ← joint.expression? sign first second
            operators fuel place rank whole

/-- An operand with the signs in front of it. -/
def operand (fuel : Nat) (place : Surroundings) : Reader Expression :=
  match fuel with
  | 0 => failure
  | fuel + 1 => do
      if ← accept "-" then
        return (← operand fuel (← place.deeper)).negated
      if ← accept "+" then
        return (← operand fuel (← place.deeper)).affirmed
      if ← accept "!" then
        return .signed .not (← operand fuel (← place.deeper))
      primary fuel place

/-- An operand without signs in front, with all that stands behind it. -/
def primary (fuel : Nat) (place : Surroundings) : Reader Expression :=
  match fuel with
  | 0 => failure
  | fuel + 1 => do
      let root ← root fuel place
      accesses fuel place root

/-- The first part of an operand. -/
def root (fuel : Nat) (place : Surroundings) : Reader Expression :=
  match fuel with
  | 0 => failure
  | fuel + 1 => do
      match ← peek with
      | some (.int number) => do skip; pure (.literal (.int number))
      | some (.float number) => do skip; pure (.literal (.float number))
      | some (.text content) => do skip; pure (.literal (.text content))
      | some (.char content) => do skip; pure (.literal (.char content))
      | some (.sign "(") => do
          skip
          if ← accept ")" then
            return .literal .unit
          let inner ← expression fuel (← place.deeper)
          expect ")"
          pure inner
      | some (.sign "[") => do
          skip
          let place ← place.deeper
          if ← accept "]" then
            return .array []
          .array <$> items fuel (← place.deeper) "]"
      | some (.sign "\x7b") => do .block <$> block fuel (← place.deeper)
      | some (.word "true") => do skip; pure (.literal (.bool true))
      | some (.word "false") => do skip; pure (.literal (.bool false))
      | some (.word name) => do
          if ["if", "while", "loop", "do", "for"].contains name then
            return .block [← construct fuel (← place.deeper)]
          let word ← position
          skip
          if functionWords.contains name then
            match ← peek with
            | some (.sign "(") | some (.sign "!") => return .read name word
            | _ => failure
          ensure (isVariableName name)
          pure (.read name word)
      | _ => failure

/-- The inputs, indices and links behind an operand. -/
def accesses (fuel : Nat) (place : Surroundings) (target : Expression) : Reader Expression :=
  match fuel with
  | 0 => failure
  | fuel + 1 => do
      match target with
      | .read name word =>
          let marked ← accept "!"
          if ← accept "(" then
            let inputs ← inputs fuel place
            return ← accesses fuel place (.call name word inputs)
          ensure (!marked)
      | _ => pure ()
      if ← accept "[" then
        let links ← indices fuel (← place.deeper)
        match links with
        | .index position :: _ => ensure (target.canIndex position)
        | _ => failure
        return ← accesses fuel place (.access target links)
      if ← accept "." then
        match ← peek with
        | some (.word name) => ensure (isVariableName name || methodWords.contains name)
        | _ => failure
        let behind ← primary fuel (← place.deeper)
        return target.follow (← behind.linksBehindPoint?)
      pure target

def inputs (fuel : Nat) (place : Surroundings) : Reader (List Expression) :=
  match fuel with
  | 0 => failure
  | fuel + 1 => do
      if ← accept ")" then
        return []
      items fuel (← place.deeper) ")"

/-- Expressions between commas up to a closing sign; a last comma may stand before it. -/
def items (fuel : Nat) (place : Surroundings) (close : String) : Reader (List Expression) :=
  match fuel with
  | 0 => failure
  | fuel + 1 => do
      if ← accept close then
        return []
      let first ← expression fuel place
      if ← accept close then
        return [first]
      expect ","
      let others ← items fuel place close
      pure (first :: others)

/-- Indices that follow each other, from behind the first opening bracket. -/
def indices (fuel : Nat) (place : Surroundings) : Reader (List Link) :=
  match fuel with
  | 0 => failure
  | fuel + 1 => do
      let position ← expression fuel place
      expect "]"
      if ← accept "[" then
        let others ← indices fuel (← place.deeper)
        return .index position :: others
      pure [.index position]

/-- An expression that guards a block. -/
def guarding (fuel : Nat) (place : Surroundings) : Reader Expression :=
  match fuel with
  | 0 => failure
  | fuel + 1 => do
      match ← peek with
      | some (.sign "\x7b") => failure
      | _ => expression fuel place

def test (fuel : Nat) (place : Surroundings) : Reader Expression :=
  match fuel with
  | 0 => failure
  | fuel + 1 => do
      let found ← guarding fuel place
      ensure found.canTest
      pure found

def construct (fuel : Nat) (place : Surroundings) : Reader Statement :=
  match fuel with
  | 0 => failure
  | fuel + 1 => do
      let place ← place.deeper
      if ← acceptWord "if" then
        let found ← test fuel place
        let yes ← block fuel place
        if ← acceptWord "else" then
          match ← peek with
          | some (.word "if") =>
              let other ← construct fuel place
              return .choose found yes [other]
          | _ =>
              let no ← block fuel place
              return .choose found yes no
        return .choose found yes []
      if ← acceptWord "while" then
        let found ← test fuel place
        let body ← block fuel place.loop
        return .repeatWhile (some found) body
      if ← acceptWord "loop" then
        let body ← block fuel place.loop
        return .repeatWhile none body
      if ← acceptWord "do" then
        let body ← block fuel place.loop
        let wanted ← acceptWord "while"
        if !wanted then expectWord "until"
        let found ← test fuel { place with inLoop := false }
        return .repeatUntil body found wanted
      expectWord "for"
      let bracketed ← accept "("
      let item ← variableName
      let counter ←
        if bracketed then do
          expect ","
          let counter ← variableName
          ensure (counter != item)
          expect ")"
          pure (some counter)
        else pure none
      expectWord "in"
      let source ← guarding fuel place
      ensure source.canIterate
      let seen := counter.elim place fun counter => place.declare counter false
      let body ← block fuel (seen.declare item false).loop
      pure (.forEach item counter source body)

def block (fuel : Nat) (place : Surroundings) : Reader (List Statement) :=
  match fuel with
  | 0 => failure
  | fuel + 1 => do
      let place ← place.deeper
      expect "\x7b"
      statements fuel place true

/-- A value that may be left out at the end of a statement. -/
def maybeValue (fuel : Nat) (place : Surroundings) : Reader (Option Expression) :=
  match fuel with
  | 0 => failure
  | fuel + 1 => do
      if ← endsStatement then
        return none
      some <$> expression fuel (← place.deeper)

def statement (fuel : Nat) (place : Surroundings) : Reader Statement :=
  match fuel with
  | 0 => failure
  | fuel + 1 => do
      match ← peek with
      | some (.sign "\x7b") => .block <$> block fuel (← place.deeper)
      | some (.word "let") => do skip; declaration fuel (← place.deeper) false
      | some (.word "const") => do skip; declaration fuel (← place.deeper) true
      | some (.word "break") => do
          skip
          ensure place.inLoop
          .leaveLoop <$> maybeValue fuel place
      | some (.word "continue") => do
          skip
          ensure place.inLoop
          pure .nextRound
      | some (.word "return") => do skip; .leaveScript <$> maybeValue fuel place
      | some (.word "throw") => do skip; .raise <$> maybeValue fuel place
      | some (.word name) =>
          if ["if", "while", "loop", "do", "for"].contains name then
            construct fuel (← place.deeper)
          else expressionStatement fuel (← place.deeper)
      | _ => expressionStatement fuel (← place.deeper)

def declaration (fuel : Nat) (place : Surroundings) (constant : Bool) : Reader Statement :=
  match fuel with
  | 0 => failure
  | fuel + 1 => do
      let name ← variableName
      if ← accept "=" then
        let value ← expression fuel (← place.deeper)
        return .declare name constant value
      pure (.declare name constant (.literal .unit))

/-- An expression, or an assignment to one. -/
def expressionStatement (fuel : Nat) (place : Surroundings) : Reader Statement :=
  match fuel with
  | 0 => failure
  | fuel + 1 => do
      let target ← expression fuel place
      match (← peek).bind assignment? with
      | none => pure (.express target)
      | some operator =>
          skip
          let value ← expression fuel (← place.deeper)
          Statement.assignment? place target operator value

/-- Statements up to the end of the script, or up to the brace that closes a block. -/
def statements (fuel : Nat) (place : Surroundings) (inBlock : Bool) : Reader (List Statement) :=
  match fuel with
  | 0 => failure
  | fuel + 1 => do
      if ← accept ";" then
        return ← statements fuel place inBlock
      if ← accept "\x7d" then
        ensure inBlock
        return []
      if (← peek).isNone then
        ensure (!inBlock)
        return []
      let first ← statement fuel place
      ensure (first.isClosed || (← endsStatement))
      let place := match first with
        | .declare name constant _ => place.declare name constant
        | _ => place
      let others ← statements fuel place inBlock
      pure (first :: others)

end

end Reader

/-- The statements of a script, unless it is malformed or goes beyond the part of the language that
this engine knows. Between two tokens fewer than ten calls are made, which bounds the fuel. -/
def parse (source : Text) : Option (List Statement) :=
  match Token.read source with
  | none => none
  | some tokens =>
      (Reader.statements (10 * tokens.length + 10) ⟨maxDepth, false, []⟩ false tokens).map Prod.fst

end Dabara.Script
