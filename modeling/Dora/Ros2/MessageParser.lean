import Dora.Lib.Fallible
import Dora.Lib.Parse

/-!
# Interface files (`ros2-bridge/msg-gen/src/parser`)

A line of a ROS interface file declares a member, with or without a default, or a constant. Its comment
is cut off first; whether it is a constant is decided by the sign after the name; then the line is parsed,
and the text of its value once more by the type.
-/

namespace Dora.MsgGen

open Lib Parser

inductive BasicType where
  | i8 | i16 | i32 | i64 | u8 | u16 | u32 | u64 | f32 | f64 | bool | char | byte
deriving DecidableEq

inductive GenericString where
  | string
  | wstring
  | boundedString (maxSize : Nat)
  | boundedWString (maxSize : Nat)
deriving DecidableEq

inductive NestableType where
  | basicType (t : BasicType)
  | namedType (name : String)
  | namespacedType (package name : String)
  | genericString (t : GenericString)
deriving DecidableEq

inductive MemberType where
  | nestableType (t : NestableType)
  | array (valueType : NestableType) (size : Nat)
  | sequence (valueType : NestableType)
  | boundedSequence (valueType : NestableType) (maxSize : Nat)
deriving DecidableEq

inductive GenericUnboundedString where
  | string
  | wstring
deriving DecidableEq

inductive PrimitiveType where
  | basicType (t : BasicType)
  | genericUnboundedString (t : GenericUnboundedString)
deriving DecidableEq

inductive ConstantType where
  | primitiveType (t : PrimitiveType)
  | primitiveArray (valueType : PrimitiveType) (size : Nat)
deriving DecidableEq

structure Member where
  name : String
  type : MemberType
  default : Option (List String)
deriving DecidableEq

structure Constant where
  name : String
  type : ConstantType
  value : List String
deriving DecidableEq

structure Message where
  package : String
  name : String
  members : List Member
  constants : List Constant
deriving DecidableEq

inductive RclMsgError where
  | parseMemberError (input : String)
  | invalidDefaultError (type : String)
  | parseDefaultValueError (value : String)
  | parseConstantError (input : String)
  | parseConstantValueError (value : String)
  /-- `ensure!`. -/
  | conditionFailed
deriving DecidableEq

def isBlank (c : Char) : Bool := c == ' ' || c == '\t'

def space0 : Parser (List Char) := run0 isBlank
def space1 : Parser (List Char) := run1 isBlank

def isLowerOrDigit (c : Char) : Bool := c.isLower || c.isDigit

def packageName : Parser (List Char) := recognize do
  let _ ← satisfy Char.isLower
  let _ ← opt (char '_')
  separatedList1 (char '_') (run1 isLowerOrDigit)

def memberName : Parser (List Char) := recognize do
  let _ ← satisfy Char.isLower
  let _ ← opt (char '_')
  separatedList0 (char '_') (run1 isLowerOrDigit)

def messageName : Parser (List Char) := recognize do
  let _ ← satisfy Char.isUpper
  run0 Char.isAlphanum

def constantName : Parser (List Char) :=
  recognize (separatedList1 (char '_') (run1 fun c => c.isUpper || c.isDigit))

def decLiteral : Parser Int := do
  let flag ← opt (satisfy fun c => c == '+' || c == '-')
  let digits ← separatedList1 (char '_') (run1 Char.isDigit)
  let value : Int := Nat.ofDigitChars 10 digits.flatten 0
  let value := if flag = some '-' then -value else value
  if -2 ^ 127 ≤ value ∧ value < 2 ^ 127 then return value else failure

def usizeLiteral : Parser Nat := do
  let value ← decLiteral
  if 0 ≤ value ∧ value < 2 ^ 64 then return value.toNat else failure

def basicTypes : List (String × BasicType) :=
  [("uint8", .u8), ("uint16", .u16), ("uint32", .u32), ("uint64", .u64), ("int8", .i8), ("int16", .i16),
    ("int32", .i32), ("int64", .i64), ("float32", .f32), ("float64", .f64), ("bool", .bool),
    ("char", .char), ("byte", .byte)]

def basicType : Parser BasicType := fun s =>
  basicTypes.findSome? fun (text, t) => (tag text.toList s).map fun (_, rest) => (t, rest)

/-- Whether it is `wstring`. -/
def stringKeyword : Parser Bool :=
  (do tag "string".toList; return false) <|> (do tag "wstring".toList; return true)

def genericString : Parser GenericString := do
  let wide ← stringKeyword
  let maxSize ← opt (do tag "<=".toList; usizeLiteral)
  match maxSize with
  | none => return if wide then .wstring else .string
  | some maxSize => return if wide then .boundedWString maxSize else .boundedString maxSize

def genericUnboundedString : Parser GenericUnboundedString := do
  let wide ← stringKeyword
  return if wide then .wstring else .string

def nestableType : Parser NestableType :=
  (do return .basicType (← basicType)) <|> (do return .genericString (← genericString)) <|>
    (do
      let package ← packageName
      let _ ← char '/'
      let name ← messageName
      return .namespacedType (.ofList package) (.ofList name)) <|>
    (do return .namedType (.ofList (← messageName)))

def primitiveType : Parser PrimitiveType :=
  (do return .basicType (← basicType)) <|>
    (do return .genericUnboundedString (← genericUnboundedString))

def typeEnd : Parser Unit := peek ((do let _ ← space1; return ()) <|> eof)

def sequenceInfo : Parser (Option Unit × Option Nat) := do
  let _ ← char '['
  let bounded ← opt (tag "<=".toList)
  let size ← opt usizeLiteral
  let _ ← char ']'
  return (bounded, size)

def parseMemberType : Parser MemberType := do
  let valueType ← nestableType
  let info ← opt sequenceInfo
  typeEnd
  match info with
  | none => return .nestableType valueType
  | some (none, none) => return .sequence valueType
  | some (none, some size) => return .array valueType size
  | some (some _, some size) => return .boundedSequence valueType size
  | some (some _, none) => failure

def arraySize : Parser Nat := do
  let _ ← char '['
  let size ← usizeLiteral
  let _ ← char ']'
  return size

def parseConstantType : Parser ConstantType := do
  let valueType ← primitiveType
  let size ← opt arraySize
  typeEnd
  match size with
  | none => return .primitiveType valueType
  | some size => return .primitiveArray valueType size

/-- Up to a quote that no backslash stands before. (`is_not` takes several characters at once.) -/
def unescape (quote : Char) : List Char → List Char × List Char
  | [] => ([], [])
  | [c] => if c = quote then ([], [c]) else ([c], [])
  | c :: d :: s =>
    if c = quote then ([], c :: d :: s)
    else if c = '\\' ∧ d = quote then
      let (body, rest) := unescape quote s
      (quote :: body, rest)
    else
      let (body, rest) := unescape quote (d :: s)
      (c :: body, rest)

def quoted (quote : Char) : Parser String := do
  let _ ← char quote
  let body ← fun s => some (unescape quote s)
  let _ ← char quote
  return trim (.ofList body)

def unquoted : Parser String := fun s =>
  let value := trim (.ofList s)
  let between (quote : String) := startsWith value quote && endsWith value quote
  if between "\"" || between "'" then none else some (value, [])

def stringLiteral : Parser String :=
  quoted '"' <|> quoted '\'' <|> (do let _ ← satisfy fun c => c == '"' || c == '\''; return "") <|> unquoted

def utf16Length (value : String) : Nat :=
  (value.toList.map fun c => if c.toNat < 0x10000 then 1 else 2).sum

/-- The bound of a string is in bytes, that of a wide string in UTF-16 code units. -/
def GenericString.fits : GenericString → String → Bool
  | .string, _ | .wstring, _ => true
  | .boundedString maxSize, value => value.utf8ByteSize ≤ maxSize
  | .boundedWString maxSize, value => utf16Length value ≤ maxSize

def getStringLiteralParser (t : GenericString) : Parser String := verify stringLiteral t.fits

def sequenceElement : Parser String :=
  quoted '"' <|> quoted '\'' <|> do
    let text ← recognize do
      let _ ← satisfy fun c => c != '"' && c != '\'' && c != ','
      opt (run1 (· != ','))
    return trim (.ofList text)

def spaced (p : Parser String) : Parser String := do
  let _ ← space0
  let value ← p
  let _ ← space0
  return value

def sequenceItems : Parser (List String) := do
  let _ ← space0
  let values ← separatedList1 (char ',') (spaced sequenceElement)
  let _ ← opt (char ',')
  let _ ← space0
  eof
  return values

def stringLiteralSequence : Parser (List String) := fun s =>
  if s.head? = some '[' ∧ s.getLast? = some ']' then sequenceItems s.tail.dropLast else none

-- `get_basic_type_literal_parser`
variable (basicLiteral : BasicType → Parser String)

def basicTypeSequence (t : BasicType) : Parser (List String) := do
  let _ ← char '['
  let _ ← space0
  let values ← separatedList1 (char ',') (spaced (basicLiteral t))
  let _ ← space0
  let _ ← char ']'
  return values

def ensure (condition : Bool) : Except RclMsgError Unit :=
  if condition then .ok () else .error .conditionFailed

/-- A parser that has to read the whole text. -/
def whole {α : Type} (p : Parser α) (e : String → RclMsgError) (text : List Char) : Except RclMsgError α :=
  match p text with
  | some (a, rest) => if rest = [] then .ok a else .error .conditionFailed
  | none => .error (e (.ofList text))

def nestableTypeDefault (t : NestableType) (default : List Char) : Except RclMsgError (List String) :=
  match t with
  | .basicType t => do return [← whole (basicLiteral t) .parseDefaultValueError default]
  | .namedType name => .error (.invalidDefaultError name)
  | .namespacedType package name => .error (.invalidDefaultError (package ++ "/msg/" ++ name))
  | .genericString t => do return [← whole (getStringLiteralParser t) .parseDefaultValueError default]

def arrayTypeDefault (t : NestableType) (default : List Char) : Except RclMsgError (List String) :=
  match t with
  | .basicType t => whole (basicTypeSequence basicLiteral t) .parseDefaultValueError default
  | .namedType name => .error (.invalidDefaultError name)
  | .namespacedType package name => .error (.invalidDefaultError (package ++ "/msg/" ++ name))
  | .genericString t => do
    let values ← whole stringLiteralSequence .parseDefaultValueError default
    ensure (values.all t.fits)
    return values

def validateDefault (t : MemberType) (default : List Char) : Except RclMsgError (List String) :=
  match t with
  | .nestableType t => nestableTypeDefault basicLiteral t default
  | .array t size => do
    let values ← arrayTypeDefault basicLiteral t default
    ensure (values.length = size)
    return values
  | .sequence t => arrayTypeDefault basicLiteral t default
  | .boundedSequence t maxSize => do
    let values ← arrayTypeDefault basicLiteral t default
    ensure (values.length ≤ maxSize)
    return values

def validateValue (t : ConstantType) (value : List Char) : Except RclMsgError (List String) :=
  match t with
  | .primitiveType (.basicType t) => do
    return [← whole (basicLiteral t) .parseConstantValueError value]
  | .primitiveType (.genericUnboundedString _) => do
    return [← whole stringLiteral .parseDefaultValueError value]
  | .primitiveArray (.basicType t) size => do
    let values ← whole (basicTypeSequence basicLiteral t) .parseDefaultValueError value
    ensure (values.length = size)
    return values
  | .primitiveArray (.genericUnboundedString _) size => do
    let values ← whole stringLiteralSequence .parseDefaultValueError value
    ensure (values.length = size)
    return values

/-- Words with blanks between them. -/
def valueText : Parser (List Char) := recognize (separatedList1 space1 (run1 (!isBlank ·)))

def memberParts : Parser (MemberType × List Char × Option (List Char)) := do
  let type ← parseMemberType
  let _ ← space1
  let name ← memberName
  let default ← opt (do let _ ← space1; valueText)
  let _ ← space0
  eof
  return (type, name, default)

def memberDef (line : List Char) : Except RclMsgError Member :=
  match memberParts line with
  | some ((type, name, none), _) => .ok ⟨.ofList name, type, none⟩
  | some ((type, name, some default), _) => do
    return ⟨.ofList name, type, some (← validateDefault basicLiteral type default)⟩
  | none => .error (.parseMemberError (.ofList line))

def constantParts : Parser (ConstantType × List Char × List Char) := do
  let type ← parseConstantType
  let _ ← space1
  let name ← constantName
  let _ ← space0
  let _ ← char '='
  let _ ← space0
  let value ← valueText
  let _ ← space0
  eof
  return (type, name, value)

def constantDef (line : List Char) : Except RclMsgError Constant :=
  match constantParts line with
  | some ((type, name, value), _) => do
    return ⟨.ofList name, type, ← validateValue basicLiteral type value⟩
  | none => .error (.parseConstantError (.ofList line))

def nextQuote (inQuotes : Option Char) (c : Char) : Option Char :=
  if c = '\'' ∨ c = '"' then
    match inQuotes with
    | none => some c
    | some quote => if quote = c then none else some quote
  else inQuotes

/-- The loop of `strip_comment`; `before` is the character before. -/
def stripQuoted (inQuotes : Option Char) (haveQuotes : Bool) (before : Char) : List Char → List Char
  | [] => []
  | c :: s =>
    let inQuotes := nextQuote inQuotes c
    let haveQuotes := haveQuotes || c == '\'' || c == '"'
    if c = '#' ∧ (if haveQuotes then inQuotes = none else before ∈ [' ', '\t', '\n', '\x0c', '\r']) then []
    else c :: stripQuoted inQuotes haveQuotes c s

def stripComment (s : List Char) : List Char :=
  let typeString := (s.dropWhile isWhitespace).takeWhile (!isWhitespace ·)
  if typeString = "string".toList ∨ typeString = "wstring".toList then stripQuoted none false ' ' s
  else s.takeWhile (· != '#')

def isConstant (line : List Char) : Bool :=
  match line.dropWhile (· != ' ') with
  | [] => false
  | _ :: rest =>
    let rest := (rest.dropWhile isWhitespace).dropWhile fun c => !isWhitespace c && c != '='
    (rest.dropWhile isWhitespace).head? == some '='

/-- `str::lines`. -/
def lines (text : List Char) : List (List Char) :=
  let ended (line : List Char) := if line.getLast? = some '\r' then line.dropLast else line
  match (text.splitOn '\n').reverse with
  | [] => []
  | last :: before => before.reverse.map ended ++ if last = [] then [] else [last]

def parseLine (message : Message) (line : List Char) : Except RclMsgError Message :=
  let line := (trim (.ofList (stripComment line))).toList
  if line = [] then .ok message
  else if isConstant line then do
    return { message with constants := message.constants ++ [← constantDef basicLiteral line] }
  else do
    return { message with members := message.members ++ [← memberDef basicLiteral line] }

def parseMessageString (package name messageString : String) : Except RclMsgError Message :=
  (lines messageString.toList).foldlM (parseLine basicLiteral) ⟨package, name, [], []⟩

end Dora.MsgGen
