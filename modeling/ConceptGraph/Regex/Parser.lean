/-
Reading regular expressions.

The reader works its way through the characters that are left, under the flags in force, and remembers the names of
groups. What it has read is a `Piece`: an expression with what the limits are about, its height and the memory that it
takes as an automaton. Reading ends in the first `Fault`.

Under the flag `x`, white space and comments may stand between any two tokens: `advance` passes one character and what
may stand behind it, `next` one character alone.
-/
import ConceptGraph.Regex.Expr
import ConceptGraph.Regex.Fault
import ConceptGraph.Text.Alphabetic
import ConceptGraph.Text.Digits

namespace ConceptGraph.Regex

open Text

/-- flags that can be set and unset inside a text -/
structure Flags where
  ignoreCase : Bool
  multiLine : Bool
  dotAll : Bool
  swapGreed : Bool
  crlf : Bool
  spaced : Bool
  deriving DecidableEq, Repr

def Flags.none : Flags := ⟨false, false, false, false, false, false⟩

/-- what is left to read, and what has to be kept in mind -/
structure Reading where
  rest : List Char
  flags : Flags
  names : List String
  deriving DecidableEq, Repr

abbrev Reader := StateT Reading (Except Fault)

/-! ## Pieces -/

/-- the groups that record what they match, in the order in which they start: how many there are, the place of the last one
that is still there, counted from one, and the bytes of the names of those that are -/
structure Groups where
  count : Nat
  last : Nat
  nameBytes : Nat
  deriving DecidableEq, Repr

namespace Groups

def none : Groups := ⟨0, 0, 0⟩

/-- bytes of the place that a name has besides the name itself -/
def placeBytes : Nat := 4

/-- one more group around all of them -/
def around (g : Groups) (name : Option String) : Groups :=
  ⟨g.count + 1, g.last + 1, g.nameBytes + name.elim 0 fun n => n.utf8ByteSize + placeBytes⟩

/-- first the ones, then the others -/
def append (g h : Groups) : Groups :=
  ⟨g.count + h.count, if h.last = 0 then g.last else g.count + h.last, g.nameBytes + h.nameBytes⟩

/-- none of them is there any more, but they have been counted -/
def dropped (g : Groups) : Groups := ⟨g.count, 0, 0⟩

end Groups

/-- an expression with its height, whether it can match nothing, the bytes of its states, and its groups -/
structure Piece where
  expr : Expr
  height : Nat
  nullable : Bool
  bytes : Nat
  groups : Groups
  deriving DecidableEq, Repr

namespace Piece

/-- bytes of one state, of a target of a branch, of a range, and of the record of one group -/
def stateBytes : Nat := 32
def targetBytes : Nat := 4
def rangeBytes : Nat := 8
def groupBytes : Nat := 16

/-- bytes of a state with two targets -/
def splitBytes : Nat := stateBytes + 2 * targetBytes

def empty : Piece := ⟨.empty, 0, true, stateBytes, .none⟩
def char (c : Char) : Piece := ⟨.char c, 0, false, stateBytes, .none⟩
def set (s : CharSet) : Piece := ⟨.set s, 0, false, stateBytes + rangeBytes * s.length, .none⟩
def look (l : Look) : Piece := ⟨.look l, 0, true, stateBytes, .none⟩

/-- a group that records what it matched, with a name or without -/
def group (p : Piece) (name : Option String) : Piece :=
  ⟨p.expr, p.height + 1, p.nullable, p.bytes + 2 * stateBytes, p.groups.around name⟩

def seqExpr : List Piece → Expr
  | [] => .empty
  | [p] => p.expr
  | p :: ps => .seq p.expr (seqExpr ps)

def altExpr : List Piece → Expr
  | [] => .empty
  | [p] => p.expr
  | p :: ps => .alt p.expr (altExpr ps)

def maxHeight (ps : List Piece) : Nat := ps.foldr (fun p n => max p.height n) 0
def sumBytes (ps : List Piece) : Nat := ps.foldr (fun p n => p.bytes + n) 0
def allGroups (ps : List Piece) : Groups := ps.foldr (fun p g => p.groups.append g) .none

/-- one after the other -/
def concat : List Piece → Piece
  | [] => empty
  | [p] => p
  | ps => ⟨seqExpr ps, maxHeight ps + 1, ps.all (·.nullable), sumBytes ps, allGroups ps⟩

/-- one of them -/
def alternation : List Piece → Piece
  | [] => empty
  | [p] => p
  | ps => ⟨altExpr ps, maxHeight ps + 1, ps.any (·.nullable),
      2 * stateBytes + targetBytes * ps.length + sumBytes ps, allGroups ps⟩

/-- bytes of a repetition, by how often it is written out -/
def repeatedBytes (p : Piece) : Nat → Option Nat → Nat
  | 0, none => if p.nullable then p.bytes + 2 * splitBytes + stateBytes else p.bytes + splitBytes
  | n, none => n * p.bytes + splitBytes
  | n, some m =>
    if n = m then n * p.bytes
    else (if n = 0 then stateBytes else n * p.bytes) + stateBytes + (m - n) * (splitBytes + p.bytes)

/-- a repetition; none at all is the empty expression, and a single one the expression itself. A group has one record,
however often it is written out -/
def repeated (p : Piece) (min : Nat) (max : Option Nat) : Piece :=
  if max = some 0 then { empty with groups := p.groups.dropped }
  else if min = 1 ∧ max = some 1 then p
  else
    let bytes := if min = 0 ∧ max = some 1 then splitBytes + p.bytes + stateBytes else repeatedBytes p min max
    ⟨.repeated p.expr min max, p.height + 1, min = 0 || p.nullable, bytes, p.groups⟩

/-- bytes of the automaton, in which the whole piece is a group by itself, before the end. There are records of all groups
up to the last one, whether they are still there or not -/
def automatonBytes (p : Piece) : Nat :=
  p.bytes + 3 * stateBytes + groupBytes * (p.groups.last + 1) + p.groups.nameBytes

end Piece

/-! ## Moving on -/

/-- what is left after spacing and comments; the flag tells whether a comment is open -/
def dropSpacing : Bool → List Char → List Char
  | _, [] => []
  | true, c :: cs => dropSpacing (c != '\n') cs
  | false, c :: cs =>
    if isBlank c then dropSpacing false cs
    else if c == '#' then dropSpacing true cs
    else c :: cs

namespace Reader

def peek : Reader (Option Char) := do pure (← get).rest.head?

/-- passes one character -/
def next : Reader Unit := modify fun s => { s with rest := s.rest.tail }

/-- passes spacing, where it may stand -/
def space : Reader Unit := modify fun s => if s.flags.spaced then { s with rest := dropSpacing false s.rest } else s

/-- passes one character and the spacing behind it, and shows what comes then -/
def advance : Reader (Option Char) := do
  next
  space
  peek

/-- as `advance`, where the text must not end -/
def advanceOr (fault : Fault) : Reader Char := do
  match ← advance with
  | some c => pure c
  | none => throw fault

/-- passes the given characters, if they come next -/
def accept (cs : List Char) : Reader Bool := do
  let s ← get
  if cs.isPrefixOf s.rest then
    set { s with rest := s.rest.drop cs.length }
    pure true
  else pure false

/-- the characters from here on that satisfy `p`, passing the spacing behind each -/
def run (p : Char → Bool) : Nat → Reader (List Char)
  | 0 => pure []
  | fuel + 1 => do
    match ← peek with
    | some c =>
      if p c then
        let _ ← advance
        pure (c :: (← run p fuel))
      else pure []
    | none => pure []

/-- as `run`, as far as the text goes -/
def runAll (p : Char → Bool) : Reader (List Char) := do run p (← get).rest.length

/-! ## Numbers -/

/-- a number below 2^32, with white space on either side -/
def decimal : Reader Nat := do
  modify fun s => { s with rest := dropBlanks s.rest }
  let ds ← runAll Char.isDigit
  let _ ← runAll isBlank
  if ds = [] then throw .noDigits
  else if natOfDigits ds < UInt32.size then pure (natOfDigits ds)
  else throw .invalidDecimal

/-- the character with that code point -/
def codePoint? (n : Nat) : Option Char := if n.isValidChar then some (Char.ofNat n) else none

/-- hexadecimal digits from the current character up to a closing brace -/
def hexDigits : Nat → Reader (List Char)
  | 0 => throw .hexBraceUnclosed
  | fuel + 1 => do
    match ← advance with
    | none => throw .hexBraceUnclosed
    | some c =>
      if c = '}' then pure []
      else if (hexDigit? c).isSome then pure (c :: (← hexDigits fuel))
      else throw .hexBraceDigit

/-- a code point in braces, the opening one being the current character -/
def bracedCodePoint : Reader Char := do
  let ds ← hexDigits (← get).rest.length
  let _ ← advance
  if ds = [] then throw .hexBraceEmpty
  match (hexNumber? ds).bind codePoint? with
  | some c => pure c
  | none => throw .hexBraceInvalid

/-- exactly `n + 1` hexadecimal digits, the first being the current character -/
def fixedDigits : Nat → Reader (List Char)
  | 0 => do
    match ← peek with
    | some c => if (hexDigit? c).isSome then pure [c] else throw .hexFixedDigit
    | none => throw .hexFixedUnclosed
  | n + 1 => do
    match ← peek with
    | some c =>
      if (hexDigit? c).isSome then
        let _ ← advanceOr .hexFixedUnclosed
        pure (c :: (← fixedDigits n))
      else throw .hexFixedDigit
    | none => throw .hexFixedUnclosed

/-- a code point of `n + 1` digits -/
def fixedCodePoint (n : Nat) : Reader Char := do
  let ds ← fixedDigits n
  let _ ← advance
  match (hexNumber? ds).bind codePoint? with
  | some c => pure c
  | none => throw .hexFixedInvalid

/-! ## Single characters and conditions -/

/-- a character that stands for itself, or for both its cases -/
def letter (c : Char) : Reader Piece := do
  if (← get).flags.ignoreCase then
    match CharSet.otherCase? (c.toNat, c.toNat) with
    | some r => pure (.set (CharSet.canonical [(c.toNat, c.toNat), r]))
    | none => pure (.char c)
  else pure (.char c)

def dot : Reader Piece := do
  let flags := (← get).flags
  if flags.dotAll then pure (.set (CharSet.complement []))
  else if flags.crlf then pure (.set (CharSet.complement [CharSet.span '\n' '\n', CharSet.span '\r' '\r']))
  else pure (.set (CharSet.complement [CharSet.span '\n' '\n']))

def caret : Reader Piece := do
  let flags := (← get).flags
  if flags.multiLine then pure (.look (if flags.crlf then .crlfLineStart else .lineStart)) else pure (.look .start)

def dollar : Reader Piece := do
  let flags := (← get).flags
  if flags.multiLine then pure (.look (if flags.crlf then .crlfLineEnd else .lineEnd)) else pure (.look .finish)

/-- the set that a letter after a backslash names -/
def classEscape? : Char → Option CharSet
  | 'd' => some CharSet.digits
  | 's' => some CharSet.spaces
  | 'w' => some CharSet.wordChars
  | 'D' => some CharSet.digits.complement
  | 'S' => some CharSet.spaces.complement
  | 'W' => some CharSet.wordChars.complement
  | _ => none

/-- the character that a letter after a backslash names -/
def controlEscape? : Char → Option Char
  | 'a' => some '\x07'
  | 'f' => some '\x0c'
  | 't' => some '\t'
  | 'n' => some '\n'
  | 'r' => some '\r'
  | 'v' => some '\x0b'
  | _ => none

/-- the condition that a letter after a backslash names -/
def lookEscape? : Char → Option Look
  | 'A' => some .start
  | 'z' => some .finish
  | 'b' => some .word
  | 'B' => some .notWord
  | '<' => some .wordStart
  | '>' => some .wordEnd
  | _ => none

/-- ASCII characters that a backslash makes stand for themselves -/
def isEscapable (c : Char) : Bool := c.toNat < 0x80 && !c.isAlphanum && c != '<' && c != '>'

/-- the condition of that name -/
def boundary? : String → Option Look
  | "start" => some .wordStart
  | "end" => some .wordEnd
  | "start-half" => some .wordStartHalf
  | "end-half" => some .wordEndHalf
  | _ => none

def isBoundaryChar (c : Char) : Bool := c.isAlpha || c == '-'

/-- the name of a word boundary, up to the closing brace -/
def boundaryName : Reader Piece := do
  let name ← runAll isBoundaryChar
  if (← peek) ≠ some '}' then throw .boundaryUnclosed
  next
  match boundary? (String.ofList name) with
  | some l => pure (.look l)
  | none => throw .boundaryUnknown

/-- a word boundary, with a name in braces, unless the braces turn out to hold something else -/
def boundary : Reader Piece := do
  let before ← get
  if before.rest.head? ≠ some '{' then pure (.look .word)
  else
    let c ← advanceOr .boundaryOrCountUnclosed
    if !isBoundaryChar c then
      set before
      pure (.look .word)
    else boundaryName

/-- what follows a backslash -/
def escape : Reader Piece := do
  match ← peek with
  | none => throw .escapeUnclosed
  | some c =>
    if c.isDigit then throw .backReference
    else if c = 'p' ∨ c = 'P' then throw .unicodeClass
    else if c = 'x' ∨ c = 'u' ∨ c = 'U' then
      let d ← advanceOr .hexUnclosed
      if d = '{' then letter (← bracedCodePoint)
      else letter (← fixedCodePoint (if c = 'x' then 1 else if c = 'u' then 3 else 7))
    else
      next
      if let some s := classEscape? c then pure (.set s)
      else if isEscapable c then letter c
      else if let some d := controlEscape? c then letter d
      else if c = 'b' then boundary
      else if let some l := lookEscape? c then pure (.look l)
      else throw .unknownEscape

/-! ## Character classes -/

/-- whether a class name starts with the mark of a negation, and the characters behind it -/
def negation : List Char → Bool × List Char
  | '^' :: cs => (true, cs)
  | cs => (false, cs)

/-- a class name between `[:` and `:]`, if that is what comes next -/
def namedClass : Reader (Option CharSet) := do
  let s ← get
  match s.rest with
  | '[' :: ':' :: cs =>
    let (negated, cs) := negation cs
    let name := cs.takeWhile (· != ':')
    match cs.dropWhile (· != ':'), CharSet.named? (String.ofList name) with
    | ':' :: ']' :: rest, some set =>
      StateT.set { s with rest := rest }
      pure (some (if negated then set.complement else set))
    | _, _ => pure none
  | _ => pure none

/-- one item of a class: a character, or an escape -/
def classItem : Reader Expr := do
  match ← peek with
  | none => throw .classUnclosed
  | some c =>
    next
    if c = '\\' then pure (← escape).expr else pure (.char c)

def itemRanges : Expr → Reader CharSet
  | .char c => pure (CharSet.single c)
  | .set s => pure s
  | _ => throw .classItem

def itemChar : Expr → Reader Char
  | .char c => pure c
  | _ => throw .classRangeItem

/-- the first character that is not white space, on either side of one `#` -/
def firstBeyond (cs : List Char) : Option Char :=
  match dropBlanks cs with
  | '#' :: cs => (dropBlanks cs).head?
  | cs => cs.head?

/-- what decides whether a dash is the end of its class; comments do not count as spacing here -/
def peekBeyond : Reader (Option Char) := do
  let s ← get
  let cs := s.rest.tail
  pure (if s.flags.spaced then firstBeyond cs <|> cs.head? else cs.head?)

/-- an item, or a range from one character to another -/
def classRange : Reader CharSet := do
  let low ← classItem
  space
  match ← peek with
  | none => throw .classUnclosedAfterItem
  | some c =>
    let beyond ← peekBeyond
    if c ≠ '-' ∨ beyond = some ']' ∨ beyond = some '-' then itemRanges low
    else
      let _ ← advanceOr .classRangeUnclosed
      let high ← classItem
      let a ← itemChar low
      let b ← itemChar high
      if b.toNat < a.toNat then throw .classRangeReversed
      pure [(a.toNat, b.toNat)]

/-- what stands in a class from here on, up to its closing bracket -/
def classBody : Nat → Reader CharSet
  | 0 => throw .classUnclosed
  | fuel + 1 => do
    space
    let beyond := (← get).rest.tail.head?
    match ← peek with
    | none => throw .classUnclosed
    | some c =>
      if c = '[' then
        match ← namedClass with
        | some s => pure (s ++ (← classBody fuel))
        | none => throw .classNested
      else if c = ']' then
        next
        pure []
      else if c = '&' ∧ beyond = some '&' then throw .classIntersection
      else if c = '-' ∧ beyond = some '-' then throw .classDifference
      else if c = '~' ∧ beyond = some '~' then throw .classSymmetricDifference
      else
        let s ← classRange
        pure (s ++ (← classBody fuel))

/-- dashes at the start of a class, which stand for themselves -/
def leadingDashes : Nat → Reader CharSet
  | 0 => pure []
  | fuel + 1 => do
    if (← peek) = some '-' then
      let _ ← advanceOr .classUnclosedAfterDash
      pure (CharSet.single '-' ++ (← leadingDashes fuel))
    else pure []

/-- a bracket at the start of a class, which stands for itself, too -/
def leadingBracket (dashes : CharSet) : Reader CharSet := do
  if dashes = [] ∧ (← peek) = some ']' then
    let _ ← advanceOr .classUnclosedAfterBracket
    pure (CharSet.single ']')
  else pure []

/-- the set that a class names, from behind the mark of a negation up to its closing bracket -/
def classSet : Reader CharSet := do
  let fuel := (← get).rest.length + 1
  let dashes ← leadingDashes fuel
  let bracket ← leadingBracket dashes
  let body ← classBody fuel
  let s := CharSet.canonical (dashes ++ bracket ++ body)
  if (← get).flags.ignoreCase then pure s.foldCase else pure s

/-- a class, its opening bracket being the current character -/
def charClass : Reader Piece := do
  let c ← advanceOr .classUnclosed
  if c = '^' then
    let _ ← advanceOr .classUnclosedAfterNegation
    pure (.set (← classSet).complement)
  else pure (.set (← classSet))

/-! ## Repetitions -/

/-- passes the mark of a lazy repetition, which matches the same texts -/
def lazyMark : Option Char → Reader Unit
  | some '?' => next
  | _ => pure ()

/-- how often, after the current character `?`, `*` or `+` -/
def mark (c : Char) : Reader (Nat × Option Nat) := do
  next
  lazyMark (← peek)
  pure (if c = '+' then 1 else 0, if c = '?' then some 1 else none)

/-- the number that ends a repetition, `c` being the current character; without one there is no limit -/
def lastCount (c : Char) : Reader (Option Nat) := if c = '}' then pure none else some <$> decimal

/-- the largest number of times, behind the smallest one -/
def maxCount (min : Nat) : Reader (Option Nat) := do
  match ← peek with
  | none => throw .countMinUnclosed
  | some c =>
    if c = ',' then
      let max ← lastCount (← advanceOr .countCommaUnclosed)
      if (← peek).isNone then throw .countMaxUnclosed else pure max
    else pure (some min)

/-- how often, by numbers in braces, the opening one being the current character -/
def counts : Reader (Nat × Option Nat) := do
  let _ ← advanceOr .countUnclosed
  let min ← decimal
  let max ← maxCount min
  if (← peek) ≠ some '}' then throw .countInvalid
  else
    lazyMark (← advance)
    if max.any (· < min) then throw .countReversed else pure (min, max)

/-! ## Groups -/

def setFlag (flags : Flags) (on : Bool) : Char → Option Flags
  | 'i' => some { flags with ignoreCase := on }
  | 'm' => some { flags with multiLine := on }
  | 's' => some { flags with dotAll := on }
  | 'U' => some { flags with swapGreed := on }
  | 'R' => some { flags with crlf := on }
  | 'x' => some { flags with spaced := on }
  | _ => none

/-- flags up to `:` or `)`; `seen` holds the marks so far, the last one first -/
def readFlags : List Char → Flags → List Char → Except Fault (Flags × List Char × List Char)
  | [], _, _ => throw .unclosedFlags
  | c :: cs, flags, seen =>
    if c = ':' ∨ c = ')' then
      if seen.head? = some '-' then throw .danglingNegation else pure (flags, seen, c :: cs)
    else if c = '-' then
      if seen.contains '-' then throw .repeatedNegation else readFlags cs flags (c :: seen)
    else match setFlag flags (!seen.contains '-') c with
      | none => throw .unknownFlag
      | some flags => if seen.contains c then throw .duplicateFlag else readFlags cs flags (c :: seen)

def isNameStart (c : Char) : Bool := c == '_' || isAlphabetic c

def isNameChar (c : Char) : Bool := c == '.' || c == '[' || c == ']' || isNameStart c || isNumeric c

/-- the name of a group, up to the closing bracket -/
def groupName : Reader String := do
  let s ← get
  let name := s.rest.takeWhile (· != '>')
  let rest := s.rest.dropWhile (· != '>')
  let text := String.ofList name
  if s.rest = [] then throw .missingName
  else if !(name.take 1).all isNameStart || !(name.drop 1).all isNameChar then throw .invalidName
  else if rest = [] then throw .unclosedName
  else if name = [] then throw .emptyName
  else if s.names.contains text then throw .duplicateName
  else
    StateT.set { s with rest := rest.tail, names := text :: s.names }
    pure text

/-- how a group starts -/
inductive Opening where
  | recorded (name : Option String)
  | plain
  | flagsOnly
  deriving DecidableEq, Repr

/-- the group that starts so, with what stands in it -/
def Opening.enclose (start : Opening) (body : Piece) : Piece :=
  match start with
  | .recorded name => body.group name
  | _ => body

/-- flags at the start of a group, or all that the group is for, and what is left then -/
def readGroupFlags (cs : List Char) (flags : Flags) : Except Fault (Opening × Flags × List Char) :=
  if cs = [] then throw .unclosedGroupQuestion
  else do
    let (flags, seen, rest) ← readFlags cs flags []
    if rest.head? = some ')' then
      if seen = [] then throw .emptyFlags else pure (.flagsOnly, flags, rest)
    else pure (.plain, flags, rest.tail)

def groupFlags : Reader Opening := do
  let s ← get
  let (start, flags, rest) ← readGroupFlags s.rest s.flags
  set { s with rest := rest, flags := flags }
  pure start

/-- the start of a group, its parenthesis being the current character -/
def opening : Reader Opening := do
  let _ ← advance
  if (← accept ['?', '=']) || (← accept ['?', '!']) || (← accept ['?', '<', '=']) || (← accept ['?', '<', '!']) then
    throw .lookAround
  else if (← accept ['?', 'P', '<']) || (← accept ['?', '<']) then
    let name ← groupName
    pure (.recorded (some name))
  else if ← accept ['?'] then groupFlags
  else pure (.recorded none)

/-! ## Expressions -/

/-- how deep groups and expressions may be nested -/
def maxNesting : Nat := 50

/-- the last piece, for a repetition to apply to -/
def popPiece (fault : Fault) (items : List Piece) : Reader (Piece × List Piece) :=
  match items with
  | p :: ps => pure (p, ps)
  | [] => throw fault

/-- whether a character asks for a repetition of what stands before it -/
def isRepetition (c : Char) : Bool := c == '{' || c == '?' || c == '*' || c == '+'

/-- how often, by the current character -/
def times (c : Char) : Reader (Nat × Option Nat) := if c = '{' then counts else mark c

/-- a repetition of the last piece -/
def repetition (c : Char) (items : List Piece) : Reader (List Piece) := do
  let (p, items) ← popPiece (if c = '{' then .nothingToCount else .nothingToRepeat) items
  let (min, max) ← times c
  pure (p.repeated min max :: items)

/-- what takes no piece before it: a class, what follows a backslash, a condition, or a character -/
def atom (c : Char) : Reader Piece :=
  if c = '[' then charClass
  else do
    next
    if c = '\\' then escape
    else if c = '.' then dot
    else if c = '^' then caret
    else if c = '$' then dollar
    else letter c

/-- passes the end of a group, and puts the flags before it in force again -/
def closeGroup (flags : Flags) : Reader Unit := do
  if (← peek) ≠ some ')' then throw .unclosedGroup
  else
    modify fun s => { s with flags := flags }
    next

/-- alternatives up to the end of their group; `done` and `items` hold what has been read, the last first -/
def expression : Nat → Nat → List Piece → List Piece → Reader Piece
  | 0, _, _, _ => throw .tooNested
  | fuel + 1, depth, done, items => do
    space
    match ← peek with
    | none => pure (.alternation (Piece.concat items.reverse :: done).reverse)
    | some c =>
      if c = '(' then
        let flags := (← get).flags
        let start ← opening
        if start = .flagsOnly then
          next
          expression fuel depth done items
        else if maxNesting < depth + 1 then throw .tooNested
        else
          let body ← expression fuel (depth + 1) [] []
          closeGroup flags
          expression fuel depth done (start.enclose body :: items)
      else if c = ')' then
        if depth = 0 then throw .unopenedGroup
        else pure (.alternation (Piece.concat items.reverse :: done).reverse)
      else if c = '|' then
        next
        expression fuel depth (Piece.concat items.reverse :: done) []
      else if isRepetition c then
        let items ← repetition c items
        expression fuel depth done items
      else
        let p ← atom c
        expression fuel depth done (p :: items)

end Reader

/-- how many bytes an automaton may take -/
def maxBytes : Nat := 10 * 1024 * 1024

/-- the expression that a text stands for -/
def parse (text : List Char) : Except Fault Expr := do
  let p ← (Reader.expression (text.length + 1) 0 [] []).run' ⟨text, .none, []⟩
  if Reader.maxNesting < p.height then throw .tooNested
  if maxBytes < p.automatonBytes then throw .tooLarge
  pure p.expr

end ConceptGraph.Regex
