/-
This file reads TOML documents as values. A document is a row of lines, each of which gives a key
its value, opens a table by a header or opens one more table of a list. Tables can come about in
three ways: by their own header, on the way to a table whose header names them, and on the way to a
dotted key. What may be added to a table later depends on that, since a table is to be written in
one place: a header opens what was at most passed on the way of another header, and a dotted key
goes only through tables that no header opened and through the tables of a list.

How deep values and keys may go is bounded by `depthLimit`.
-/

import PatternGraph.Settings.Toml.Lexical

namespace PatternGraph.Toml

/-- How a table came about. -/
inductive Origin
  /-- It was opened by a header of its own. -/
  | header
  /-- It was passed by the header of another table. -/
  | passed
  /-- It was passed by a dotted key. -/
  | dotted
  deriving DecidableEq

/-- What a key of a document under construction holds. -/
inductive Entry
  | value (value : Value)
  | table (origin : Origin) (fields : List (String × Entry))
  /-- A list of tables, the one opened last in front. -/
  | tables (elements : List (List (String × Entry)))

/-- The fields of a table, in the order in which they were written. -/
abbrev Fields := List (String × Entry)

def Fields.get? (fields : Fields) (name : String) : Option Entry := fields.lookup name

/-- Replaces a field or adds it at the end. -/
def Fields.put (name : String) (entry : Entry) : Fields → Fields
  | [] => [(name, entry)]
  | (other, kept) :: rest =>
    if other == name then (name, entry) :: rest
    else (other, kept) :: Fields.put name entry rest

/-- Changes the fields of the table at the end of a path. Tables missing on the way come about with
the given origin; in a list of tables the way leads through the one opened last. A dotted key does
not go through a table that was opened by a header of its own. -/
def Fields.descend (origin : Origin) (change : Option Origin → Fields → Option Fields)
    (here : Option Origin) (fields : Fields) : List String → Option Fields
  | [] => change here fields
  | name :: path =>
    match fields.get? name with
    | none => (descend origin change (some origin) [] path).map fun inner =>
        fields.put name (.table origin inner)
    | some (.table kept inner) =>
      if origin == .dotted && kept == .header then none
      else (descend origin change (some kept) inner path).map fun inner =>
        fields.put name (.table kept inner)
    | some (.tables (last :: earlier)) =>
      (descend origin change (some .header) last path).map fun last =>
        fields.put name (.tables (last :: earlier))
    | some (.tables []) | some (.value _) => none

/-- Gives a key its value in a table. The last part of a dotted key belongs to a table that dotted
keys have made. -/
def Fields.assign (keys : List String) (value : Value) (fields : Fields) : Option Fields :=
  let change (here : Option Origin) (inner : Fields) : Option Fields :=
    if here.isSome && here != some .dotted then none
    else keys.getLast?.bind fun name =>
      if (inner.get? name).isSome then none else some (inner.put name (.value value))
  fields.descend .dotted change none keys.dropLast

/-- Opens a table by its header. -/
def Fields.openTable (path : List String) (fields : Fields) : Option Fields :=
  let change (_ : Option Origin) (inner : Fields) : Option Fields :=
    path.getLast?.bind fun name =>
      match inner.get? name with
      | none => some (inner.put name (.table .header []))
      | some (.table .passed kept) => some (inner.put name (.table .header kept))
      | some _ => none
  fields.descend .passed change none path.dropLast

/-- Opens one more table of a list. -/
def Fields.openElement (path : List String) (fields : Fields) : Option Fields :=
  let change (_ : Option Origin) (inner : Fields) : Option Fields :=
    path.getLast?.bind fun name =>
      match inner.get? name with
      | none => some (inner.put name (.tables [[]]))
      | some (.tables elements) => some (inner.put name (.tables ([] :: elements)))
      | some _ => none
  fields.descend .passed change none path.dropLast

mutual

/-- The value that an entry stands for in the end. -/
def Entry.toValue : Entry → Value
  | .value value => value
  | .table _ fields => .record (valuesOf fields)
  | .tables elements => .list (recordsOf elements).reverse

/-- The values of a row of fields. -/
def valuesOf : List (String × Entry) → List (String × Value)
  | [] => []
  | (name, entry) :: rest => (name, entry.toValue) :: valuesOf rest

/-- The records that a row of tables stands for. -/
def recordsOf : List (List (String × Entry)) → List Value
  | [] => []
  | fields :: rest => .record (valuesOf fields) :: recordsOf rest

end

/-! ### Values with values inside -/

mutual

/-- A value of any type that stands within as many lists and tables on one line as the depth says.
The fuel bounds the depth and the length of what is read and is never used up when it is the length
of the text. -/
def value (depth fuel : Nat) (text : List Char) : Option (Value × List Char) :=
  match fuel with
  | 0 => none
  | fuel + 1 =>
    match text with
    | '[' :: rest =>
      if depth + 1 < depthLimit then
        (elements (depth + 1) fuel rest).map fun (elements, rest) => (.list elements, rest)
      else none
    | '\x7b' :: rest =>
      if depth + 1 < depthLimit then
        match skipBlanks rest with
        | '\x7d' :: rest => some (.record [], rest)
        | rest => (inlineFields (depth + 1) fuel [] rest).map fun (fields, rest) =>
            (.record (valuesOf fields), rest)
      else none
    | '"' :: _ | '\'' :: _ => (quoted text).map fun (body, rest) => (.text body, rest)
    | _ => word text

/-- The elements of a list up to its closing bracket. A comma may stand after the last one. -/
def elements (depth fuel : Nat) (text : List Char) : Option (List Value × List Char) :=
  match fuel with
  | 0 => none
  | fuel + 1 =>
    match skipSpace text.length text with
    | ']' :: rest => some ([], rest)
    | text =>
      (value depth fuel text).bind fun (first, rest) =>
        match skipSpace rest.length rest with
        | ',' :: rest =>
          (elements depth fuel rest).map fun (others, rest) => (first :: others, rest)
        | ']' :: rest => some ([first], rest)
        | _ => none

/-- The fields of a table on one line up to its closing brace, after those read before. -/
def inlineFields (depth fuel : Nat) (fields : Fields) (text : List Char) :
    Option (Fields × List Char) :=
  match fuel with
  | 0 => none
  | fuel + 1 =>
    (dottedKey text).bind fun (keys, rest) =>
      match skipBlanks rest with
      | '=' :: rest =>
        (value depth fuel (skipBlanks rest)).bind fun (found, rest) =>
          (fields.assign keys found).bind fun fields =>
            match skipBlanks rest with
            | ',' :: rest => inlineFields depth fuel fields rest
            | '\x7d' :: rest => some (fields, rest)
            | _ => none
      | _ => none

end

/-! ### Lines -/

/-- A document up to some line: everything written so far and the table that the next line adds
to. -/
structure Progress where
  fields : Fields
  current : List String

/-- Gives a key its value in the table that was opened last. -/
def Progress.assign (progress : Progress) (keys : List String) (found : Value) :
    Option Progress :=
  let change (_ : Option Origin) (inner : Fields) : Option Fields := inner.assign keys found
  (progress.fields.descend .passed change none progress.current).map fun fields =>
    { progress with fields }

/-- A header after its opening brackets: the key up to the closing brackets. -/
def header (closing : List Char) (text : List Char) : Option (List String × List Char) :=
  (dottedKey text).bind fun (keys, rest) =>
    let rest := skipBlanks rest
    if closing.isPrefixOf rest then some (keys, rest.drop closing.length) else none

/-- Reads one line that is not blank. -/
def line (progress : Progress) (text : List Char) : Option (Progress × List Char) :=
  match text with
  | '[' :: '[' :: rest =>
    (header [']', ']'] rest).bind fun (path, rest) =>
      (progress.fields.openElement path).map fun fields => (⟨fields, path⟩, rest)
  | '[' :: rest =>
    (header [']'] rest).bind fun (path, rest) =>
      (progress.fields.openTable path).map fun fields => (⟨fields, path⟩, rest)
  | _ =>
    (dottedKey text).bind fun (keys, rest) =>
      match skipBlanks rest with
      | '=' :: rest =>
        let rest := skipBlanks rest
        (value 0 rest.length rest).bind fun (found, rest) =>
          (progress.assign keys found).map fun progress => (progress, rest)
      | _ => none

/-- Reads the lines of a document. Every line takes at least one character, so the length of the
text is fuel enough. -/
def lines (fuel : Nat) (progress : Progress) (text : List Char) : Option Progress :=
  match fuel with
  | 0 => some progress
  | fuel + 1 =>
    match skipSpace (text.length + 1) text with
    | [] => some progress
    | text =>
      (line progress text).bind fun (progress, rest) =>
        (afterLine? rest).bind fun rest => lines fuel progress rest

/-- The text without a byte order mark at its beginning. -/
def withoutMark : List Char → List Char
  | '\ufeff' :: rest => rest
  | text => text

/-- The fields of a document, `none` if it is not well formed. -/
def parse? (document : String) : Option (List (String × Value)) :=
  let text := withoutMark document.toList
  (lines (text.length + 1) ⟨[], []⟩ text).map fun progress => valuesOf progress.fields

end PatternGraph.Toml
