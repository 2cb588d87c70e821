/-! The characters of TOML: blanks, line ends, comments, strings and keys. A
reader takes the remaining characters and gives back what is left of them. -/
namespace ImageCartridge.Toml

def isBlank (c : Char) : Bool :=
  c = ' ' || c = '\t'

/-- Characters that may stand in a comment or a string as they are: the tab and
everything that is not an ASCII control character. -/
def isText (c : Char) : Bool :=
  c = '\t' || (0x20 ≤ c.toNat && c.toNat ≠ 0x7f)

def isKeyChar (c : Char) : Bool :=
  c.isAlphanum || c = '_' || c = '-'

def skipBlanks (chars : List Char) : List Char :=
  chars.dropWhile isBlank

/-- Pass over one line end. A carriage return alone is none. -/
def lineEnd? : List Char → Option (List Char)
  | '\n' :: rest => some rest
  | '\r' :: '\n' :: rest => some rest
  | _ => none

/-- A line end takes at least one character, which is why passing over lines ends. -/
theorem lineEnd?_length_lt {chars rest : List Char} (h : lineEnd? chars = some rest) :
    rest.length < chars.length := by
  unfold lineEnd? at h
  split at h
  · cases h; simp
  · cases h; simp only [List.length_cons]; omega
  · cases h

def skipComment : List Char → List Char
  | '#' :: rest => rest.dropWhile isText
  | chars => chars

/-- Pass over the rest of a line that may hold blanks and a comment only. The
end of the document ends a line too. -/
def finishLine? (chars : List Char) : Option (List Char) :=
  match skipComment (skipBlanks chars) with
  | [] => some []
  | chars => lineEnd? chars

def skipLines : List Char → List Char
  | [] => []
  | c :: rest =>
      if isBlank c || c = '\n' then skipLines rest
      else if c = '\r' then
        match rest with
        | '\n' :: rest => skipLines rest
        | _ => c :: rest
      else if c = '#' then
        match _hLine : lineEnd? (rest.dropWhile isText) with
        | some rest => skipLines rest
        | none => c :: rest
      else c :: rest
termination_by chars => chars.length
decreasing_by
  · simp
  · simp only [List.length_cons]; omega
  · exact Nat.lt_succ_of_lt (Nat.lt_of_lt_of_le (lineEnd?_length_lt _hLine)
      (List.dropWhile_sublist _).length_le)

def hexValue? (c : Char) : Option Nat :=
  if c.isDigit then some (c.toNat - '0'.toNat)
  else if 'a' ≤ c && c ≤ 'f' then some (c.toNat - 'a'.toNat + 10)
  else if 'A' ≤ c && c ≤ 'F' then some (c.toNat - 'A'.toNat + 10)
  else none

/-- The character with a code point spelled in hexadecimal digits. Surrogates
and numbers past the last code point have none. -/
def codePoint? (digits : List Char) : Option Char := do
  let values ← digits.mapM hexValue?
  let n := values.foldl (fun n v => n * 16 + v) 0
  if n.isValidChar then some (Char.ofNat n) else none

/-- The character an escape stands for, and the length of the escape without
its backslash. -/
def escape? : List Char → Option (Char × Nat)
  | 'b' :: _ => some ('\x08', 1)
  | 't' :: _ => some ('\t', 1)
  | 'n' :: _ => some ('\n', 1)
  | 'f' :: _ => some ('\x0c', 1)
  | 'r' :: _ => some ('\r', 1)
  | '"' :: _ => some ('"', 1)
  | '\\' :: _ => some ('\\', 1)
  | 'u' :: rest =>
      let digits := rest.take 4
      if digits.length = 4 then (codePoint? digits).map (·, 5) else none
  | 'U' :: rest =>
      let digits := rest.take 8
      if digits.length = 8 then (codePoint? digits).map (·, 9) else none
  | _ => none

def basicString (seen : List Char) : List Char → Option (String × List Char)
  | [] => none
  | '"' :: rest => some (String.ofList seen.reverse, rest)
  | '\\' :: rest =>
      match escape? rest with
      | some (c, length) => basicString (c :: seen) (rest.drop length)
      | none => none
  | c :: rest => if isText c then basicString (c :: seen) rest else none
termination_by chars => chars.length
decreasing_by
  · simp only [List.length_drop, List.length_cons]; omega
  · simp

def literalString (seen : List Char) : List Char → Option (String × List Char)
  | [] => none
  | '\x27' :: rest => some (String.ofList seen.reverse, rest)
  | c :: rest => if isText c then literalString (c :: seen) rest else none

/-- Pass over the line end right behind three opening quotes. -/
def trimLineEnd (chars : List Char) : List Char :=
  (lineEnd? chars).getD chars

/-- The end of a string in three quotes, read behind these quotes. Up to two
quotes more belong to the text. -/
def closeLong (quote : Char) (seen : List Char) : List Char → String × List Char
  | c :: d :: rest =>
      if c = quote && d = quote then (String.ofList (d :: c :: seen).reverse, rest)
      else if c = quote then (String.ofList (c :: seen).reverse, d :: rest)
      else (String.ofList seen.reverse, c :: d :: rest)
  | [c] =>
      if c = quote then (String.ofList (c :: seen).reverse, [])
      else (String.ofList seen.reverse, [c])
  | [] => (String.ofList seen.reverse, [])

def skipSpace : List Char → List Char
  | '\r' :: '\n' :: rest => skipSpace rest
  | c :: rest => if isBlank c || c = '\n' then skipSpace rest else c :: rest
  | [] => []

theorem skipSpace_length_le (chars : List Char) : (skipSpace chars).length ≤ chars.length := by
  fun_induction skipSpace chars with
  | case1 rest ih => simp only [List.length_cons]; omega
  | case2 c rest _ _ ih => simp only [List.length_cons]; omega
  | case3 => exact Nat.le_refl _
  | case4 => exact Nat.le_refl _

/-- What follows a backslash at the end of a line: the next character that is
neither blank nor line end. -/
def joinedLine? (chars : List Char) : Option (List Char) :=
  (lineEnd? (skipBlanks chars)).map skipSpace

theorem joinedLine?_length_lt {chars rest : List Char} (h : joinedLine? chars = some rest) :
    rest.length < chars.length := by
  obtain ⟨behind, hEnd, rfl⟩ := Option.map_eq_some_iff.mp h
  exact Nat.lt_of_le_of_lt (skipSpace_length_le behind)
    (Nat.lt_of_lt_of_le (lineEnd?_length_lt hEnd) (List.dropWhile_sublist _).length_le)

/-- The rest of a string in three double quotes. Line ends count as one
character each, however they are written. -/
def longBasicString (seen : List Char) : List Char → Option (String × List Char)
  | '"' :: '"' :: '"' :: rest => some (closeLong '"' seen rest)
  | '\\' :: rest =>
      match _hLine : joinedLine? rest with
      | some rest => longBasicString seen rest
      | none =>
          match escape? rest with
          | some (c, length) => longBasicString (c :: seen) (rest.drop length)
          | none => none
  | '\r' :: '\n' :: rest => longBasicString ('\n' :: seen) rest
  | c :: rest =>
      if isText c || c = '\n' then longBasicString (c :: seen) rest else none
  | [] => none
termination_by chars => chars.length
decreasing_by
  · exact Nat.lt_succ_of_lt (joinedLine?_length_lt _hLine)
  · simp only [List.length_drop, List.length_cons]; omega
  · simp only [List.length_cons]; omega
  · simp

def longLiteralString (seen : List Char) : List Char → Option (String × List Char)
  | '\x27' :: '\x27' :: '\x27' :: rest => some (closeLong '\x27' seen rest)
  | '\r' :: '\n' :: rest => longLiteralString ('\n' :: seen) rest
  | c :: rest =>
      if isText c || c = '\n' then longLiteralString (c :: seen) rest else none
  | [] => none

def stringLiteral : List Char → Option (String × List Char)
  | '"' :: '"' :: '"' :: rest => longBasicString [] (trimLineEnd rest)
  | '\x27' :: '\x27' :: '\x27' :: rest => longLiteralString [] (trimLineEnd rest)
  | '"' :: rest => basicString [] rest
  | '\x27' :: rest => literalString [] rest
  | _ => none

def simpleKey : List Char → Option (String × List Char)
  | '"' :: rest => basicString [] rest
  | '\x27' :: rest => literalString [] rest
  | chars =>
      match chars.takeWhile isKeyChar with
      | [] => none
      | word => some (String.ofList word, chars.dropWhile isKeyChar)

/-- Parts of keys and values may be nested less deep than this. -/
def depthLimit : Nat := 80

/-- A key of several parts with dots between them, blanks around each part. The
fuel bounds the number of parts. -/
def keyParts : Nat → List Char → Option (List String × List Char)
  | 0, _ => none
  | fuel + 1, chars => do
      let (part, rest) ← simpleKey (skipBlanks chars)
      match skipBlanks rest with
      | '.' :: rest =>
          let (parts, rest) ← keyParts fuel rest
          return (part :: parts, rest)
      | rest => return ([part], rest)

/-- A key with as many parts as the limit allows. -/
def dottedKey (chars : List Char) : Option (List String × List Char) :=
  keyParts (depthLimit - 1) chars

end ImageCartridge.Toml
