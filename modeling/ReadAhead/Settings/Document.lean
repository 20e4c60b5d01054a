import ReadAhead.Settings.Error
import ReadAhead.Settings.Literal

/-!
  Documents — settings written as lines of a file

  A document is a sequence of lines. A line is empty or binds a key to a
  number, with blanks around either, and may end in a comment. A key is bare, or
  quoted in one of two ways, and is bound once at most. Anything else that a
  document could hold — tables, lists, texts, dates, truth values — is no value
  of any setting here, so a document with it is malformed.

  `Document.bindings?` gives the bindings in the order of the lines.
-/

namespace ReadAhead.Settings

/-- The bindings of a document, in the order of its lines. -/
abbrev Document := List (String × Literal)

namespace Document

/-- The lines of a text. A line ends in a line feed, with or without a carriage
return in front of it. -/
def lines : List Char → List (List Char)
  | [] => [[]]
  | '\n' :: cs => [] :: lines cs
  | '\r' :: '\n' :: cs => [] :: lines cs
  | c :: cs =>
    match lines cs with
    | [] => [[c]]
    | l :: ls => (c :: l) :: ls

/-- The blanks inside a line. -/
def isSpace (c : Char) : Bool := c == ' ' || c == '\t'

/-- A character that may stand in a comment or in quotes: a tab, or one that is
not a control character. -/
def isPlain (c : Char) : Bool := c == '\t' || (0x20 ≤ c.toNat && c.toNat != 0x7f)

def isBare (c : Char) : Bool := c.isAlphanum || c == '_' || c == '-'

/-- Whether nothing but blanks and a comment is left of a line. -/
def isFinished (cs : List Char) : Bool :=
  match cs.dropWhile isSpace with
  | [] => true
  | c :: rest => c == '#' && rest.all isPlain

/-- The character of a code point, if there is one. -/
def scalar? (n : Nat) : Option Char :=
  if h : n.isValidChar then some (Char.ofNatAux n h) else none

def escape? : Char → Option Char
  | 'b' => some '\x08'
  | 't' => some '\t'
  | 'n' => some '\n'
  | 'f' => some '\x0c'
  | 'r' => some '\r'
  | 'e' => some '\x1b'
  | '"' => some '"'
  | '\\' => some '\\'
  | _ => none

/-- How many hexadecimal digits follow the letter of a numeric escape. -/
def escapeWidth? : Char → Option Nat
  | 'x' => some 2
  | 'u' => some 4
  | 'U' => some 8
  | _ => none

/-- What a scan inside double quotes is doing. -/
inductive Quote where
  /-- Reading characters. -/
  | plain
  /-- Just behind a backslash. -/
  | escaped
  /-- Reading so many more digits of a code point, with this value so far. -/
  | numeric (left value : Nat)

/-- Reads up to the closing double quote: the text with its escapes replaced,
and the rest of the line. -/
def quoted? (state : Quote) : List Char → Option (List Char × List Char)
  | [] => none
  | c :: cs =>
    match state with
    | .plain =>
      if c == '"' then some ([], cs)
      else if c == '\\' then quoted? .escaped cs
      else if isPlain c then (quoted? .plain cs).map fun (text, rest) => (c :: text, rest)
      else none
    | .escaped =>
      match escape? c, escapeWidth? c with
      | some e, _ => (quoted? .plain cs).map fun (text, rest) => (e :: text, rest)
      | none, some width => quoted? (.numeric width 0) cs
      | none, none => none
    | .numeric left value => do
      let value := value * 16 + (← Text.digit? 16 c)
      if left ≤ 1 then
        -- the last digit; not every number is the code point of a character
        let e ← scalar? value
        let (text, rest) ← quoted? .plain cs
        return (e :: text, rest)
      else quoted? (.numeric (left - 1) value) cs

/-- Reads up to the closing single quote. -/
def verbatim? : List Char → Option (List Char × List Char)
  | [] => none
  | c :: cs =>
    if c == '\x27' then some ([], cs)
    else if isPlain c then (verbatim? cs).map fun (text, rest) => (c :: text, rest)
    else none

def key? : List Char → Option (List Char × List Char)
  | '"' :: cs => quoted? .plain cs
  | '\x27' :: cs => verbatim? cs
  | cs =>
    let name := cs.takeWhile isBare
    if name.isEmpty then none else some (name, cs.dropWhile isBare)

def line? (cs : List Char) : Option (Option (String × Literal)) :=
  if isFinished cs then some none
  else do
    let (name, rest) ← key? (cs.dropWhile isSpace)
    match rest.dropWhile isSpace with
    | '=' :: value =>
      let value := value.dropWhile isSpace
      let isInside := fun c => !isSpace c && c != '#'
      let literal ← Literal.read? (value.takeWhile isInside)
      if isFinished (value.dropWhile isInside) then
        return some (String.ofList name, literal)
      else none
    | _ => none

def bind? (doc : Document) : List (List Char) → Option Document
  | [] => some doc
  | l :: ls => do
    match ← line? l with
    | none => bind? doc ls
    | some (name, literal) =>
      if (doc.lookup name).isSome then none else bind? (doc ++ [(name, literal)]) ls

/-- The bindings of a document. A byte order mark in front of it is skipped. -/
def bindings? (text : String) : Option Document :=
  let cs := text.toList
  bind? [] (lines (if cs.head? == some '\ufeff' then cs.tail else cs))

def read (text : String) : Except SettingsError Document :=
  match bindings? text with
  | none => .error .malformed
  | some doc => .ok doc

/-- The text of a file that may be missing. -/
def textOfFile (content : Option ByteArray) : Except SettingsError String :=
  match content with
  | none => .error .notFound
  | some bytes =>
    match String.fromUTF8? bytes with
    | none => .error .notText
    | some text => .ok text

end Document

end ReadAhead.Settings
