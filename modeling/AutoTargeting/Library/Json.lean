import AutoTargeting.Library.JsonNumber

namespace Json

/-- A document as it is written: the tokens, and the raw contents of its strings and keys. -/
inductive Doc
  | scalar (token : Bytes)
  | quoted (raw : Bytes)
  | array (items : List Doc)
  | object (fields : List (Bytes × Doc))

inductive Value
  | null
  | bool (b : Bool)
  | number (n : Numeral)
  | string (s : String)
  | array (items : List Value)
  | object (fields : List (String × Value))

def comma : UInt8 := 44
def colon : UInt8 := 58
def openBracket : UInt8 := 91
def closeBracket : UInt8 := 93
def openBrace : UInt8 := 123
def closeBrace : UInt8 := 125

mutual

def Doc.render : Doc → Bytes
  | .scalar token => token
  | .quoted raw => quote :: (raw ++ [quote])
  | .array items => openBracket :: (renderItems items ++ [closeBracket])
  | .object fields => openBrace :: (renderFields fields ++ [closeBrace])

def renderItems : List Doc → Bytes
  | [] => []
  | [d] => d.render
  | d :: d' :: ds => d.render ++ comma :: renderItems (d' :: ds)

def renderFields : List (Bytes × Doc) → Bytes
  | [] => []
  | [(key, d)] => quote :: (key ++ quote :: colon :: d.render)
  | (key, d) :: f :: fs => quote :: (key ++ quote :: colon :: (d.render ++ comma :: renderFields (f :: fs)))

end

-- What a written document reads as. `limit` is how many levels may still be opened.

def readScalar (token : Bytes) : Option Value :=
  if token = [110, 117, 108, 108] then some .null
  else if token = [116, 114, 117, 101] then some (.bool true)
  else if token = [102, 97, 108, 115, 101] then some (.bool false)
  else if h : isNumeral token = true then some (.number ⟨token, h⟩)
  else none

mutual

def Doc.read : ℕ → Doc → Option Value
  | _, .scalar token => readScalar token
  | _, .quoted raw => (readString raw).map .string
  | 0, .array _ => none
  | limit + 1, .array items => (readItems limit items).map .array
  | 0, .object _ => none
  | limit + 1, .object fields => (readFields limit fields).map .object

def readItems : ℕ → List Doc → Option (List Value)
  | _, [] => some []
  | limit, d :: ds => do
    let v ← d.read limit
    let vs ← readItems limit ds
    some (v :: vs)

def readFields : ℕ → List (Bytes × Doc) → Option (List (String × Value))
  | _, [] => some []
  | limit, (key, d) :: fs => do
    let k ← readString key
    let v ← d.read limit
    let vs ← readFields limit fs
    some ((k, v) :: vs)

end

def isSpace (b : UInt8) : Bool := b == 32 || b == 9 || b == 10 || b == 13

def isDelimiter (b : UInt8) : Bool :=
  isSpace b || [quote, comma, colon, openBracket, closeBracket, openBrace, closeBrace].contains b

def skipSpace (s : Bytes) : Bytes := s.dropWhile isSpace

mutual

def parseValue : ℕ → ℕ → Bytes → Option (Value × Bytes)
  | 0, _, _ => none
  | fuel + 1, limit, s =>
    match skipSpace s with
    | [] => none
    | c :: s =>
      if c = quote then do
        let (raw, s) ← splitQuoted s
        let text ← readString raw
        some (.string text, s)
      else if c = openBracket then
        match limit with
        | 0 => none
        | limit + 1 =>
          if (skipSpace s).head? = some closeBracket then some (.array [], (skipSpace s).tail)
          else (parseItems fuel limit s).map fun p => (.array p.1, p.2)
      else if c = openBrace then
        match limit with
        | 0 => none
        | limit + 1 =>
          if (skipSpace s).head? = some closeBrace then some (.object [], (skipSpace s).tail)
          else (parseFields fuel limit s).map fun p => (.object p.1, p.2)
      else
        (readScalar ((c :: s).takeWhile (!isDelimiter ·))).map fun v =>
          (v, (c :: s).dropWhile (!isDelimiter ·))

def parseItems : ℕ → ℕ → Bytes → Option (List Value × Bytes)
  | 0, _, _ => none
  | fuel + 1, limit, s => do
    let (v, s) ← parseValue fuel limit s
    match skipSpace s with
    | [] => none
    | c :: s =>
      if c = comma then (parseItems fuel limit s).map fun p => (v :: p.1, p.2)
      else if c = closeBracket then some ([v], s)
      else none

def parseFields : ℕ → ℕ → Bytes → Option (List (String × Value) × Bytes)
  | 0, _, _ => none
  | fuel + 1, limit, s =>
    match skipSpace s with
    | [] => none
    | c :: s =>
      if c = quote then do
        let (raw, s) ← splitQuoted s
        let key ← readString raw
        match skipSpace s with
        | [] => none
        | c :: s =>
          if c = colon then do
            let (v, s) ← parseValue fuel limit s
            match skipSpace s with
            | [] => none
            | c :: s =>
              if c = comma then (parseFields fuel limit s).map fun p => ((key, v) :: p.1, p.2)
              else if c = closeBrace then some ([(key, v)], s)
              else none
          else none
      else none

end

/-- The levels that a reader opens at most. -/
def maxLevels : ℕ := 127

/-- A whole text; each call of the parser takes a byte of it. -/
def parse (s : Bytes) : Option Value :=
  match parseValue (s.length + 1) maxLevels s with
  | some (v, rest) => if skipSpace rest = [] then some v else none
  | none => none

end Json
