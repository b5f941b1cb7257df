import TypedRoutes.Pattern.Basic

/-! # Reading patterns

A text is either a pattern or not well formed; there is no third case, and look-around and
references to groups are not part of the notation.
-/

namespace TypedRoutes.Pattern
open TypedRoutes.Text

structure Flags where
  ignoreCase : Bool := false
  multiLine : Bool := false
  dotMatchesLineBreak : Bool := false
  ignoreBlanks : Bool := false
  /-- A carriage return ends a line too. -/
  carriageReturns : Bool := false
  /-- Classes reach beyond ASCII. -/
  unicode : Bool := true
  deriving DecidableEq, Repr

/-- A class as the flags take it; case is ignored beyond ASCII only where classes reach there. -/
def Flags.fold (flags : Flags) (p : CharClass) : CharClass :=
  if !flags.ignoreCase then p
  else if flags.unicode then foldCase p
  else fun c => p c || (isAscii c && foldCase p c)

structure PatternSource where
  rest : List Char
  flags : Flags := {}
  names : List String := []

abbrev PatternReader := StateT PatternSource Option

namespace PatternReader

def next? : PatternReader (Option Char) := fun s =>
  match s.rest with
  | [] => some (none, s)
  | c :: rest => some (some c, { s with rest })

def peek : PatternReader (Option Char) := do return (← get).rest.head?

def peekAfter : PatternReader (Option Char) := do return ((← get).rest.drop 1).head?

def skip : PatternReader Unit := modify fun s => { s with rest := s.rest.drop 1 }

def next : PatternReader Char := do
  match ← next? with
  | some c => return c
  | none => failure

def eat (c : Char) : PatternReader Bool := do
  if (← peek) == some c then
    skip
    return true
  else return false

def expect (c : Char) : PatternReader Unit := do
  if !(← eat c) then failure

def eatText (s : String) : PatternReader Bool := do
  match dropBeginning? s.toList (← get).rest with
  | some rest =>
    modify fun st => { st with rest }
    return true
  | none => return false

/-- Passes blanks and comments that begin a text, where they mean nothing. -/
def dropBlanks (inComment : Bool) : List Char → List Char
  | [] => []
  | c :: cs =>
    if inComment then dropBlanks (c != '\n') cs
    else if isWhitespace c then dropBlanks false cs
    else if c == '#' then dropBlanks true cs
    else c :: cs

def skipBlanks : PatternReader Unit := do
  if (← get).flags.ignoreBlanks then
    modify fun s => { s with rest := dropBlanks false s.rest }

def takeWhile (p : Char → Bool) : PatternReader (List Char) := fun s =>
  let run := s.rest.takeWhile p
  some (run, { s with rest := s.rest.drop run.length })

/-! ## Escapes -/

def hexDigit? (c : Char) : Option Nat :=
  if c.isDigit then some (c.toNat - '0'.toNat)
  else if 'a' ≤ c && c ≤ 'f' then some (c.toNat - 'a'.toNat + 10)
  else if 'A' ≤ c && c ≤ 'F' then some (c.toNat - 'A'.toNat + 10)
  else none

def hexNumber? (cs : List Char) : Option Nat :=
  cs.foldlM (fun n c => (hexDigit? c).map (n * 16 + ·)) 0

def charOfNumber (n : Nat) : PatternReader Char :=
  if n < 0xD800 || (0xE000 ≤ n && n ≤ 0x10FFFF) then return Char.ofNat n else failure

/-- Where classes do not reach beyond ASCII, two digits mean a byte, which has to be ASCII. -/
def byteChar (c : Char) : PatternReader Char := do
  if (← get).flags.unicode || isAscii c then return c else failure

def hexChar (digits : Nat) : PatternReader Char := do
  if ← eat '\x7b' then
    let cs ← takeWhile (· != '\x7d')
    expect '\x7d'
    if cs.isEmpty || cs.length > 8 then failure
    else
      match hexNumber? cs with
      | some n => charOfNumber n
      | none => failure
  else
    let s ← get
    let cs := s.rest.take digits
    set { s with rest := s.rest.drop digits }
    if cs.length < digits then failure
    else
      match hexNumber? cs with
      | some n => charOfNumber n
      | none => failure

/-- The property that a text in braces names, by itself or by its value, or the value it is not to
have. -/
def namedProperty? (text : List Char) : Option CharClass :=
  let key := text.takeWhile fun c => c != '=' && c != ':' && c != '!'
  let name := String.ofList key
  match text.drop key.length with
  | '!' :: '=' :: value => (property? name (some (String.ofList value))).map complement
  | '=' :: value | ':' :: value => property? name (some (String.ofList value))
  | _ => property? (String.ofList text) none

def propertyClass : PatternReader CharClass := do
  let flags := (← get).flags
  let name ←
    if ← eat '\x7b' then
      let text ← takeWhile (· != '\x7d')
      expect '\x7d'
      pure text
    else pure [← next]
  match namedProperty? name with
  | some p => if flags.unicode then return flags.fold p else failure
  | none => failure

inductive Escape where
  | literal (c : Char)
  | members (p : CharClass)
  | anchor (a : Anchor)

def letterClass (unicode : Bool) (c : Char) : Option CharClass :=
  let within (p : CharClass) : CharClass := fun d => p d && (unicode || isAscii d)
  match c with
  | 'd' => some (within isDecimalDigit)
  | 's' => some (within isWhitespace)
  | 'w' => some (within isWordCharacter)
  | 'D' => some (complement (within isDecimalDigit))
  | 'S' => some (complement (within isWhitespace))
  | 'W' => some (complement (within isWordCharacter))
  | _ => none

/-- The word boundary that a name in braces asks for; without one the plain boundary. -/
def wordBoundary : PatternReader Escape := do
  if (← peek) == some '\x7b' then
    if ← eatText "\x7bstart\x7d" then return .anchor .wordStart
    else if ← eatText "\x7bend\x7d" then return .anchor .wordEnd
    else if ← eatText "\x7bstart-half\x7d" then return .anchor .wordStartHalf
    else if ← eatText "\x7bend-half\x7d" then return .anchor .wordEndHalf
    else return .anchor .wordBoundary
  else return .anchor .wordBoundary

def escape : PatternReader Escape := do
  let unicode := (← get).flags.unicode
  let c ← next
  match letterClass unicode c with
  | some p => return .members p
  | none =>
    match c with
    | 'x' =>
      if (← peek) == some '\x7b' then return .literal (← hexChar 2)
      else return .literal (← byteChar (← hexChar 2))
    | 'u' => return .literal (← hexChar 4)
    | 'U' => return .literal (← hexChar 8)
    | 'p' => return .members (← propertyClass)
    | 'P' =>
      return .members (complement (← propertyClass))
    | 'a' => return .literal '\x07'
    | 'f' => return .literal '\x0c'
    | 't' => return .literal '\t'
    | 'n' => return .literal '\n'
    | 'r' => return .literal '\r'
    | 'v' => return .literal '\x0b'
    | 'A' => return .anchor .textStart
    | 'z' => return .anchor .textEnd
    | 'b' => wordBoundary
    | 'B' => return .anchor .noWordBoundary
    | '<' => return .anchor .wordStart
    | '>' => return .anchor .wordEnd
    | c => if isAscii c && !c.isAlphanum then return .literal c else failure

/-! ## Classes in brackets -/

def asciiClass? (name : String) : Option CharClass :=
  match name with
  | "alnum" => some fun c => isAscii c && c.isAlphanum
  | "alpha" => some fun c => isAscii c && c.isAlpha
  | "ascii" => some isAscii
  | "blank" => some fun c => c == ' ' || c == '\t'
  | "cntrl" => some fun c => c.toNat < 0x20 || c.toNat == 0x7F
  | "digit" => some Char.isDigit
  | "graph" => some fun c => 0x21 ≤ c.toNat && c.toNat ≤ 0x7E
  | "lower" => some fun c => isAscii c && c.isLower
  | "print" => some fun c => 0x20 ≤ c.toNat && c.toNat ≤ 0x7E
  | "punct" => some fun c => 0x21 ≤ c.toNat && c.toNat ≤ 0x7E && !c.isAlphanum
  | "space" => some fun c => c == ' ' || (9 ≤ c.toNat && c.toNat ≤ 13)
  | "upper" => some fun c => isAscii c && c.isUpper
  | "word" => some fun c => isAscii c && (c.isAlphanum || c == '_')
  | "xdigit" => some fun c => (hexDigit? c).isSome
  | _ => none

def asciiClass : PatternReader (Option CharClass) := do
  let s ← get
  let fold := s.flags.fold
  match s.rest with
  | '[' :: ':' :: rest =>
    let (negated, rest) :=
      match rest with
      | '^' :: rest => (true, rest)
      | rest => (false, rest)
    let name := rest.takeWhile (· != ':')
    match rest.drop name.length, asciiClass? (String.ofList name) with
    | ':' :: ']' :: rest, some p =>
      set { s with rest }
      return some (if negated then complement (fold p) else fold p)
    | _, _ => return none
  | _ => return none

/-- One character of a class, or a class within it; a character is beyond ASCII only where classes
reach there. -/
def classItem : PatternReader (Char ⊕ CharClass) := do
  if ← eat '\\' then
    match ← escape with
    | .literal c => return .inl (← byteChar c)
    | .members p => return .inr p
    | .anchor _ => failure
  else return .inl (← byteChar (← next))

def memberOf (item : Char ⊕ CharClass) : CharClass :=
  match item with
  | .inl d => fun c => c == d
  | .inr p => p

def classRange : PatternReader CharClass := do
  let first ← classItem
  skipBlanks
  let s ← get
  match s.rest with
  | [] => failure
  | '-' :: rest =>
    let after := (if s.flags.ignoreBlanks then dropBlanks false rest else rest).head?
    if after == some ']' || after == some '-' then return memberOf first
    else
      skip
      skipBlanks
      match first, ← classItem with
      | .inl a, .inl b => if a ≤ b then return fun c => a ≤ c && c ≤ b else failure
      | _, _ => failure
  | _ => return memberOf first

inductive ClassOperator where
  | intersection
  | difference
  | symmetricDifference
  deriving DecidableEq, Repr

def ClassOperator.apply (op : ClassOperator) (p q : CharClass) : CharClass :=
  match op with
  | intersection => fun c => p c && q c
  | difference => fun c => p c && !q c
  | symmetricDifference => fun c => p c != q c

def classOperator? : PatternReader (Option ClassOperator) := do
  if ← eatText "&&" then return some .intersection
  else if ← eatText "--" then return some .difference
  else if ← eatText "~~" then return some .symmetricDifference
  else return none

def combine (left : Option (ClassOperator × CharClass)) (p : CharClass) : CharClass :=
  match left with
  | some (op, q) => op.apply q p
  | none => p

mutual

/-- A class from its opening bracket on, with the case it ignores. -/
def bracketClass : Nat → PatternReader CharClass
  | 0 => failure
  | fuel + 1 => do
    expect '['
    skipBlanks
    let negated ← eat '^'
    skipBlanks
    let dashes ← takeWhile (· == '-')
    skipBlanks
    let initial : CharClass := fun c => !dashes.isEmpty && c == '-'
    let initial ←
      if dashes.isEmpty && (← eat ']') then pure (fun (c : Char) => c == ']') else pure initial
    let p ← classItems none initial fuel
    let p := (← get).flags.fold p
    return if negated then complement p else p

/-- The items of a class up to its closing bracket; `left` is what an operator before them
applies to, and `members` what they have come to so far. -/
def classItems (left : Option (ClassOperator × CharClass)) (members : CharClass) :
    Nat → PatternReader CharClass
  | 0 => failure
  | fuel + 1 => do
    skipBlanks
    match ← peek with
    | none => failure
    | some ']' =>
      skip
      return combine left members
    | some '[' =>
      match ← asciiClass with
      | some p => classItems left (anyOf [members, p]) fuel
      | none =>
        let p ← bracketClass fuel
        classItems left (anyOf [members, p]) fuel
    | some _ =>
      match ← classOperator? with
      | some op => classItems (some (op, combine left members)) (fun _ => false) fuel
      | none =>
        let p ← classRange
        classItems left (anyOf [members, p]) fuel

end

/-! ## Groups and repetitions -/

/-- Flags after a question mark: those set and those unset, up to the mark that ends them. -/
def flagLetters (negated : Bool) (seen : List Char) (flags : Flags) :
    Nat → PatternReader (Flags × Char)
  | 0 => failure
  | fuel + 1 => do
    let c ← next
    if c == ':' || c == ')' then
      if seen.getLast? == some '-' then failure else return (flags, c)
    else if c == '-' then
      if negated then failure else flagLetters true (seen ++ [c]) flags fuel
    else if seen.contains c then failure
    else
      let on := !negated
      let flags? :=
        match c with
        | 'i' => some { flags with ignoreCase := on }
        | 'm' => some { flags with multiLine := on }
        | 's' => some { flags with dotMatchesLineBreak := on }
        | 'x' => some { flags with ignoreBlanks := on }
        | 'u' => some { flags with unicode := on }
        | 'R' => some { flags with carriageReturns := on }
        | 'U' => some flags
        | _ => none
      match flags? with
      | some flags => flagLetters negated (seen ++ [c]) flags fuel
      | none => failure

def isGroupNameStart (c : Char) : Bool := c == '_' || isAlphabetic c

def isGroupNamePart (c : Char) : Bool :=
  c == '_' || c == '.' || c == '[' || c == ']' || isAlphanumeric c

/-- The name of a group, up to its closing bracket; each name may be used once. -/
def groupName : PatternReader Unit := do
  let name ← takeWhile (· != '>')
  expect '>'
  let text := String.ofList name
  match name with
  | [] => failure
  | c :: cs =>
    if !isGroupNameStart c || !cs.all isGroupNamePart then failure
    else if (← get).names.contains text then failure
    else modify fun s => { s with names := text :: s.names }

def decimal : PatternReader Nat := do
  let _ ← takeWhile isWhitespace
  let digits ← takeWhile Char.isDigit
  skipBlanks
  let _ ← takeWhile isWhitespace
  if digits.isEmpty || digits.length > 9 then failure
  else return digits.foldl (fun n c => n * 10 + (c.toNat - '0'.toNat)) 0

def counts : PatternReader (Nat × Option Nat) := do
  expect '\x7b'
  let least ← decimal
  let most ←
    if ← eat ',' then do
      skipBlanks
      if (← peek) == some '\x7d' then pure none
      else pure (some (← decimal))
    else pure (some least)
  expect '\x7d'
  match most with
  | some m => if m < least then failure else return (least, most)
  | none => return (least, most)

/-- A class that stands by itself; where classes do not reach beyond ASCII its complement may not
either. -/
def ofClass (flags : Flags) (p : CharClass) : PatternReader Pattern :=
  if flags.unicode || !p '\x80' then return .class p else failure

def ofLiteral (flags : Flags) (c : Char) : PatternReader Pattern :=
  if flags.ignoreCase && !flags.unicode && !isAscii c then failure
  else return .class (flags.fold (· == c))

def ofEscape (flags : Flags) : Escape → PatternReader Pattern
  | .literal c => ofLiteral flags c
  | .members p => ofClass flags p
  | .anchor a => return .anchor a (!flags.unicode)

def dotClass (flags : Flags) : CharClass := fun c =>
  flags.dotMatchesLineBreak || (c != '\n' && !(flags.carriageReturns && c == '\r'))

def caretAnchor (flags : Flags) : Anchor :=
  if !flags.multiLine then .textStart
  else if flags.carriageReturns then .returnedLineStart else .lineStart

def dollarAnchor (flags : Flags) : Anchor :=
  if !flags.multiLine then .textEnd
  else if flags.carriageReturns then .returnedLineEnd else .lineEnd

/-- Repetition signs after an item; a lazy sign changes nothing about whether there is a match. -/
def repeated (item : Pattern) : Nat → PatternReader Pattern
  | 0 => failure
  | fuel + 1 => do
    skipBlanks
    let bounds ←
      match ← peek with
      | some '*' => skip; pure (some (0, none))
      | some '+' => skip; pure (some (1, none))
      | some '?' => skip; pure (some (0, some 1))
      | some '\x7b' => pure (some (← counts))
      | _ => pure none
    match bounds with
    | none => return item
    | some (least, most) =>
      let _ ← eat '?'
      repeated (.repetition item least most) fuel

mutual

def alternatives : Nat → PatternReader Pattern
  | 0 => failure
  | fuel + 1 => do
    let first ← sequence .empty fuel
    if ← eat '|' then return .choice first (← alternatives fuel) else return first

/-- Items up to a bar, a closing parenthesis or the end, after what was read before them. -/
def sequence (before : Pattern) : Nat → PatternReader Pattern
  | 0 => failure
  | fuel + 1 => do
    skipBlanks
    match ← peek with
    | none | some '|' | some ')' => return before
    | some '(' =>
      if (← peekAfter) == some '?' then
        skip
        skip
        match ← special fuel with
        | none => sequence before fuel
        | some p => sequence (.sequence before (← repeated p (fuel + 1))) fuel
      else
        skip
        let p ← group fuel
        sequence (.sequence before (← repeated p (fuel + 1))) fuel
    | some c =>
      let p ← single c fuel
      sequence (.sequence before (← repeated p (fuel + 1))) fuel

def single (c : Char) (fuel : Nat) : PatternReader Pattern := do
  let flags := (← get).flags
  match c with
  | '[' => ofClass flags (← bracketClass fuel)
  | '\\' =>
    skip
    ofEscape flags (← escape)
  | '.' =>
    skip
    ofClass flags (dotClass flags)
  | '^' =>
    skip
    return .anchor (caretAnchor flags) false
  | '$' =>
    skip
    return .anchor (dollarAnchor flags) false
  | '*' | '+' | '?' | '\x7b' => failure
  | c =>
    skip
    ofLiteral flags c

/-- A group after its opening parenthesis; flags set in it end with it. -/
def group : Nat → PatternReader Pattern
  | 0 => failure
  | fuel + 1 => do
    let flags := (← get).flags
    let p ← alternatives fuel
    expect ')'
    modify fun s => { s with flags }
    return p

/-- What a question mark after an opening parenthesis introduces: a group, or flags for the rest of
the group around it. -/
def special : Nat → PatternReader (Option Pattern)
  | 0 => failure
  | fuel + 1 => do
    if ← eatText "P<" then
      groupName
      return some (← group fuel)
    else if (← eatText "=") || (← eatText "!") || (← eatText "<=") || (← eatText "<!") then failure
    else if ← eatText "<" then
      groupName
      return some (← group fuel)
    else if (← peek) == some ')' then failure
    else
      let outer := (← get).flags
      let (flags, mark) ← flagLetters false [] outer 16
      modify fun s => { s with flags }
      if mark == ')' then return none
      else
        let p ← group fuel
        modify fun s => { s with flags := outer }
        return some p

end

end PatternReader

def ofText? (text : String) : Option Pattern := do
  let source : PatternSource := { rest := text.toList }
  let (p, left) ← (PatternReader.alternatives (4 * text.length + 8)).run source
  if left.rest.isEmpty then some p else none

end TypedRoutes.Pattern
