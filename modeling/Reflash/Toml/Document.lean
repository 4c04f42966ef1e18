import Reflash.Toml.Statement
/-!
# Documents

A document describes the table that its statements build one after the other. `read` gives that
table, or the first thing that is wrong with the text: what keeps it from being told apart into
statements comes before what is wrong inside of them.
-/

namespace Reflash.Toml

structure Header where
  ofArray : Bool
  span : Span
  path : List (Located String)
  last : Located String

/-- What has been read of a document: the whole without the table under the last header, that
header, and that table. -/
structure Draft where
  root : Table := []
  header? : Option Header := none
  current : Table := []

namespace Draft

def close (d : Draft) : Except Fault Table :=
  match d.header? with
  | none => .ok d.current
  | some h =>
    let table : Located Value := ⟨h.span, .table .header d.current⟩
    d.root.alter false (fun _ t =>
      if !h.ofArray then .ok (t.put h.last table)
      else match t.get? h.last.value with
        | none => .ok (t.put h.last ⟨h.span, .tables [⟨h.span, d.current⟩]⟩)
        | some ⟨span, .tables before⟩ =>
          .ok (t.put h.last ⟨span, .tables (before ++ [⟨h.span, d.current⟩])⟩)
        | some _ => TableError.duplicateKey.at h.last) h.path .header

/-- What is in the place of a table that gets a header: nothing, or a table that came about on the
way to another one. -/
def reopened (root : Table) (path : List (Located String)) (last : Located String) :
    Except Fault Table :=
  match path with
  | [] =>
    match root.get? last.value with
    | none => .ok []
    | some ⟨_, .table .implied inner⟩ => .ok inner
    | some _ => TableError.duplicateKey.at last
  | key :: rest =>
    match root.get? key.value with
    | some ⟨_, .table _ inner⟩ => reopened inner rest last
    | some ⟨_, .tables items⟩ => reopened ((items.getLast?.map (·.value)).getD []) rest last
    | _ => .ok []

def start (root : Table) (h : Header) : Except Fault Draft := do
  if h.ofArray then return { root, header? := some h }
  let without ← root.alter false (fun _ t => .ok (t.remove h.last.value)) h.path .header
  return { root := without, header? := some h, current := ← reopened root h.path h.last }

def add (d : Draft) : Statement → Except Fault Draft
  | .entry path value => do
    let (path, last) ← path
    return { d with current := ← d.current.insert path last (← value) }
  | .header ofArray span path => do
    let root ← d.close
    let (path, last) ← path
    start root ⟨ofArray, span, path, last⟩

end Draft

/-- What is wrong with a token whatever is around it: it is a carriage return of its own, or a
comment that holds a control character. -/
def flaw? (t : Located Token) : Option Fault :=
  match t.value with
  | .loneReturn => some ⟨t.span.back, .structural .loneReturn⟩
  | .comment text =>
    if text.any isControl then
      let r := text.dropWhile (!isControl ·)
      some ⟨(t.span.tail r).front, .structural .controlInComment⟩
    else none
  | _ => none

/-- The statements of a text. The fault that stands first is told, be it in a token or between
them. -/
def statements (start : Nat) (s : List Char) : Except Fault (List Statement) :=
  let tokens := Token.scan start s.length s
  let flawed? := tokens.find? fun t => (flaw? t).isSome
  match Statement.readAll (tokens.length + 1) tokens, flawed? with
  | result, none => result
  | .error fault, some t =>
    if t.span.start < fault.span.start then .error ((flaw? t).getD fault) else .error fault
  | .ok l, some t => match flaw? t with
    | some flaw => .error flaw
    | none => .ok l

/-- The table that a document describes. A mark of the byte order in front of it is left out. -/
def read (text : String) : Except Fault Table := do
  let statements ← match text.toList with
    | '\uFEFF' :: r => statements (byteLength ['\uFEFF']) r
    | s => statements 0 s
  let draft ← statements.foldlM Draft.add {}
  draft.close

end Reflash.Toml
