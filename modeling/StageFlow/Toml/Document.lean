import StageFlow.Toml.Scalar

/-!
# Reading configuration files

A document is a row of entries `key = value` and of headers that say in which table the entries after
them stand. A table is defined once: by its header, by dotted keys, or as a value in braces. A header
may add a table below one that exists, and dotted keys may add to a table that only headers of tables
below it, or other dotted keys, have brought about.

`Toml.document?` returns the table of a whole document; `none` stands for a document with an error.
-/

namespace StageFlow.Toml

/-- How a table came about. -/
inductive Origin where
  /-- Named on the way to another table. -/
  | implied
  /-- By its own header. -/
  | header
  /-- By a dotted key. -/
  | dotted
  deriving DecidableEq

/-- A part of a document under construction. -/
inductive Node where
  /-- A value; nothing can be added to it. -/
  | value (v : Toml)
  /-- A table that may be added to. -/
  | table (origin : Origin) (es : List (String × Node))
  /-- An array of tables, last table first. -/
  | tables (last : List (String × Node)) (earlier : List (List (String × Node)))

/-- A row of entries under construction. -/
abbrev Entries := List (String × Node)

/-- The entry of a key. -/
def child? (k : String) (es : Entries) : Option Node := (es.find? (·.1 = k)).map (·.2)

/-- Puts an entry, in place of an earlier one of the same key. -/
def putEntry (k : String) (n : Node) : Entries → Entries
  | [] => [(k, n)]
  | e :: es => if e.1 = k then (k, n) :: es else e :: putEntry k n es

/-- Puts a value under a dotted key. -/
def assign? (v : Toml) : List String → Entries → Option Entries
  | [], _ => none
  | [k], es => if (child? k es).isSome then none else some (putEntry k (.value v) es)
  | k :: ks, es =>
    match child? k es with
    | none => do return putEntry k (.table .dotted (← assign? v ks [])) es
    | some (.table .header _) => none
    | some (.table o inner) => do return putEntry k (.table o (← assign? v ks inner)) es
    | some _ => none

/-- Changes the entries of the table at a path; tables that are missing on the way come about. -/
def modifyAt? (f : Entries → Option Entries) : List String → Entries → Option Entries
  | [], es => f es
  | k :: ks, es =>
    match child? k es with
    | none => do return putEntry k (.table .implied (← modifyAt? f ks [])) es
    | some (.table o inner) => do return putEntry k (.table o (← modifyAt? f ks inner)) es
    | some (.tables last earlier) =>
      do return putEntry k (.tables (← modifyAt? f ks last) earlier) es
    | some (.value _) => none

/-- Defines a table by its header. -/
def openTable? (k : String) (es : Entries) : Option Entries :=
  match child? k es with
  | none => some (putEntry k (.table .header []) es)
  | some (.table .implied inner) => some (putEntry k (.table .header inner) es)
  | some _ => none

/-- Adds a table to an array of tables by its header. -/
def openItem? (k : String) (es : Entries) : Option Entries :=
  match child? k es with
  | none => some (putEntry k (.tables [] []) es)
  | some (.tables last earlier) => some (putEntry k (.tables [] (last :: earlier)) es)
  | some _ => none

/-- Puts an entry in front of the first one with a greater key. -/
def insertSorted (k : String) (v : Toml) : List (String × Toml) → List (String × Toml)
  | [] => [(k, v)]
  | e :: es => if k < e.1 then (k, v) :: e :: es else e :: insertSorted k v es

mutual

/-- The finished value of a part. -/
def Node.toml : Node → Toml
  | .value v => v
  | .table _ es => .table (entriesToml es)
  | .tables last earlier => .array (tablesToml earlier [.table (entriesToml last)])

/-- The finished tables of an array, given last table first, in front of others. -/
def tablesToml : List (List (String × Node)) → List Toml → List Toml
  | [], acc => acc
  | es :: rest, acc => tablesToml rest (.table (entriesToml es) :: acc)

/-- The finished entries of a table, by key. -/
def entriesToml : List (String × Node) → List (String × Toml)
  | [] => []
  | (k, n) :: es => insertSorted k n.toml (entriesToml es)

end

/-- A part of a document is read from the front. -/
abbrev Reader (α : Type) := List Char → Option (α × List Char)

/-- A space or a tab. -/
def isSpace (c : Char) : Bool := c = ' ' || c = '\t'

/-- Drops spaces and tabs. -/
def dropSpaces (cs : List Char) : List Char := cs.dropWhile isSpace

/-- A character that may stand in comments and strings. -/
def isPlain (c : Char) : Bool := c = '\t' || (0x20 ≤ c.toNat && c.toNat ≠ 0x7f)

/-- What is left after a line end. -/
def afterLineEnd? : List Char → Option (List Char)
  | '\n' :: cs => some cs
  | '\r' :: '\n' :: cs => some cs
  | _ => none

/-- Drops a comment up to the end of its line. -/
def dropComment? : List Char → Option (List Char)
  | '#' :: cs =>
    let rest := cs.dropWhile isPlain
    if rest.isEmpty || (afterLineEnd? rest).isSome then some rest else none
  | cs => some cs

/-- Drops the rest of a line that holds nothing more. -/
def endLine? (cs : List Char) : Option (List Char) := do
  let cs ← dropComment? (dropSpaces cs)
  if cs.isEmpty then return [] else afterLineEnd? cs

/-- Drops blanks, line ends and comments. The bound exceeds the number of characters. -/
def dropFiller? : Nat → List Char → Option (List Char)
  | 0, _ => none
  | bound + 1, cs =>
    let cs := dropSpaces cs
    match cs with
    | '#' :: _ => do dropFiller? bound (← dropComment? cs)
    | cs =>
      match afterLineEnd? cs with
      | some rest => dropFiller? bound rest
      | none => some cs

/-- A code point in hexadecimal. -/
def unicode? (size : Nat) (cs : List Char) : Option (Char × List Char) :=
  let ds := cs.take size
  if ds.length = size && ds.all isHex then
    let n := valueIn 16 ds
    if n.isValidChar then some (Char.ofNat n, cs.drop size) else none
  else none

/-- An escape after its backslash. -/
def escape? : Reader Char
  | 'b' :: cs => some ('\x08', cs)
  | 't' :: cs => some ('\t', cs)
  | 'n' :: cs => some ('\n', cs)
  | 'f' :: cs => some ('\x0c', cs)
  | 'r' :: cs => some ('\r', cs)
  | '"' :: cs => some ('"', cs)
  | '\\' :: cs => some ('\\', cs)
  | 'u' :: cs => unicode? 4 cs
  | 'U' :: cs => unicode? 8 cs
  | _ => none

/-- A string on one line after its opening quote. The bound exceeds the number of characters. -/
def basicString? : Nat → Reader (List Char)
  | 0, _ | _ + 1, [] => none
  | _ + 1, '"' :: cs => some ([], cs)
  | bound + 1, '\\' :: cs => do
    let (c, cs) ← escape? cs
    let (s, cs) ← basicString? bound cs
    return (c :: s, cs)
  | bound + 1, c :: cs => do
    if !isPlain c then none
    let (s, cs) ← basicString? bound cs
    return (c :: s, cs)

/-- A literal string on one line after its opening quote. -/
def literalString? (cs : List Char) : Option (List Char × List Char) := do
  let (s, rest) ← Text.cutAt? '\'' cs
  if s.all isPlain then return (s, rest) else none

/-- The end of a long string: three quotes, before which up to two more belong to the string. -/
def closing? (q : Char) (cs : List Char) : Option (List Char × List Char) :=
  let run := (cs.takeWhile (· = q)).length
  if 3 ≤ run then
    let kept := min (run - 3) 2
    some (List.replicate kept q, cs.drop (kept + 3))
  else none

/-- Blanks and line ends after a backslash at the end of a line. -/
def afterContinuation? (cs : List Char) : Option (List Char) := do
  let rest ← afterLineEnd? (dropSpaces cs)
  let blanks := rest.takeWhile fun c => isSpace c || c = '\n' || c = '\r'
  return rest.drop blanks.length

/-- A string over several lines after its opening quotes; a literal one has no escapes. The bound
exceeds the number of characters. -/
def longString? (q : Char) (literal : Bool) : Nat → Reader (List Char)
  | 0, _ | _ + 1, [] => none
  | bound + 1, c :: cs =>
    match closing? q (c :: cs) with
    | some r => some r
    | none => do
      if c = '\\' && !literal then
        match afterContinuation? cs with
        | some rest => longString? q literal bound rest
        | none =>
          let (d, rest) ← escape? cs
          let (s, rest) ← longString? q literal bound rest
          return (d :: s, rest)
      else
        match afterLineEnd? (c :: cs) with
        | some rest =>
          let (s, rest) ← longString? q literal bound rest
          return ('\n' :: s, rest)
        | none =>
          if !isPlain c then none
          let (s, rest) ← longString? q literal bound cs
          return (c :: s, rest)

/-- A quoted string of any form. -/
def string? (cs : List Char) : Option (List Char × List Char) :=
  let long (q : Char) (literal : Bool) (cs : List Char) : Option (List Char × List Char) :=
    longString? q literal (cs.length + 1) ((afterLineEnd? cs).getD cs)
  match cs with
  | '"' :: '"' :: '"' :: cs => long '"' false cs
  | '\'' :: '\'' :: '\'' :: cs => long '\'' true cs
  | '"' :: cs => basicString? (cs.length + 1) cs
  | '\'' :: cs => literalString? cs
  | _ => none

/-- A key without dots. -/
def simpleKey? (cs : List Char) : Option (String × List Char) :=
  match cs with
  | '"' :: cs => (basicString? (cs.length + 1) cs).map fun (s, r) => (String.ofList s, r)
  | '\'' :: cs => (literalString? cs).map fun (s, r) => (String.ofList s, r)
  | cs =>
    let k := cs.takeWhile isBareChar
    if k.isEmpty then none else some (String.ofList k, cs.drop k.length)

/-- A key with dots, and the blanks after it. The bound exceeds the number of characters. -/
def dottedKey? : Nat → Reader (List String)
  | 0, _ => none
  | bound + 1, cs => do
    let (k, rest) ← simpleKey? (dropSpaces cs)
    match dropSpaces rest with
    | '.' :: rest => do
      let (ks, rest) ← dottedKey? bound rest
      return (k :: ks, rest)
    | rest => return ([k], rest)

/-- The characters of an unquoted scalar. A space may stand between a date and a time. -/
def scalarRun (cs : List Char) : List Char :=
  let run (cs : List Char) : List Char :=
    cs.takeWhile fun c => c.isAlphanum || c = '_' || c = '+' || c = '-' || c = '.' || c = ':'
  let front := run cs
  match cs.drop front.length with
  | ' ' :: d :: rest =>
    if front.length = 10 && isDate front && d.isDigit then front ++ ' ' :: run (d :: rest) else front
  | _ => front

/-- The items of an array after its bracket or a comma. The bound exceeds the number of
characters. -/
def items? (value : Reader Toml) : Nat → Reader (List Toml)
  | 0, _ => none
  | bound + 1, cs => do
    match ← dropFiller? (cs.length + 1) cs with
    | ']' :: rest => return ([], rest)
    | cs =>
      let (v, rest) ← value cs
      match ← dropFiller? (rest.length + 1) rest with
      | ',' :: rest => do
        let (vs, rest) ← items? value bound rest
        return (v :: vs, rest)
      | ']' :: rest => return ([v], rest)
      | _ => none

/-- The entries of a table in braces, which stands on one line and has no comma at its end. The bound
exceeds the number of characters. -/
def entries? (value : Reader Toml) : Nat → Entries → Reader Entries
  | 0, _, _ => none
  | bound + 1, es, cs => do
    match ← dottedKey? (cs.length + 1) cs with
    | (ks, '=' :: rest) =>
      let (v, rest) ← value (dropSpaces rest)
      let es ← assign? v ks es
      match dropSpaces rest with
      | ',' :: rest => entries? value bound es rest
      | '\x7d' :: rest => return (es, rest)
      | _ => none
    | _ => none

/-- A value. Arrays and tables in braces may be nested as deeply as there is room. -/
def value? : Nat → Reader Toml
  | 0, _ => none
  | room + 1, cs =>
    match cs with
    | '[' :: cs => do
      let (vs, rest) ← items? (value? room) (cs.length + 1) cs
      return (.array vs, rest)
    | '\x7b' :: cs =>
      match dropSpaces cs with
      | '\x7d' :: rest => some (.table [], rest)
      | cs => do
        let (es, rest) ← entries? (value? room) (cs.length + 1) [] cs
        return (.table (entriesToml es), rest)
    | '"' :: _ | '\'' :: _ => do
      let (s, rest) ← string? cs
      return (.str (String.ofList s), rest)
    | cs => do
      let run := scalarRun cs
      return (← scalar? run, cs.drop run.length)

/-- How deeply values may be nested. -/
def maxNesting : Nat := 80

/-- The path of a header up to its closing bracket. -/
def headerPath? (cs : List Char) : Option (List String × List Char) :=
  match dottedKey? (cs.length + 1) cs with
  | some (ks, ']' :: rest) => some (ks, rest)
  | _ => none

/-- Reads a header and opens its table or item. -/
def header? (root : Entries) (cs : List Char) : Option ((List String × Entries) × List Char) := do
  match cs with
  | '[' :: cs =>
    match ← headerPath? cs with
    | (path, ']' :: rest) =>
      let root ← modifyAt? (openItem? (path.getLastD "")) path.dropLast root
      return ((path, root), rest)
    | _ => none
  | cs =>
    let (path, rest) ← headerPath? cs
    let root ← modifyAt? (openTable? (path.getLastD "")) path.dropLast root
    return ((path, root), rest)

/-- Reads an entry into the table at a path. -/
def keyValue? (path : List String) (root : Entries) (cs : List Char) :
    Option (Entries × List Char) := do
  match ← dottedKey? (cs.length + 1) cs with
  | (ks, '=' :: rest) =>
    let (v, rest) ← value? (maxNesting + 1) (dropSpaces rest)
    let root ← modifyAt? (assign? v ks) path root
    return (root, rest)
  | _ => none

/-- Reads the rest of a document; `path` leads to the table that entries stand in. The bound exceeds
the number of characters. -/
def statements? : Nat → List String → Entries → List Char → Option Entries
  | 0, _, _, _ => none
  | bound + 1, path, root, cs => do
    match ← dropFiller? (cs.length + 1) cs with
    | [] => return root
    | '[' :: cs =>
      let ((path, root), rest) ← header? root cs
      statements? bound path root (← endLine? rest)
    | cs =>
      let (root, rest) ← keyValue? path root cs
      statements? bound path root (← endLine? rest)

/-- The table of a document. A mark of the byte order at the start does not count. -/
def document? (text : String) : Option (List (String × Toml)) :=
  let cs := match text.toList with
    | '\ufeff' :: cs => cs
    | cs => cs
  (statements? (cs.length + 1) [] [] cs).map entriesToml

end StageFlow.Toml
