import Roster.Filter
/-! # Statements about the table of accounts

A statement is written as words with places for values between them. The places are numbered from
one in the order in which they stand, and no value becomes part of the words. -/
namespace Roster.Sql

inductive Column
  | id
  | profile (a : Attribute)
  | createdAt
  | updatedAt
  deriving DecidableEq, Repr

namespace Column

def name : Column → String
  | id => "id"
  | profile a => a.column
  | createdAt => "created_at"
  | updatedAt => "updated_at"

def all : List Column := id :: Attribute.all.map profile ++ [createdAt, updatedAt]

theorem mem_all (c : Column) : c ∈ all := by
  cases c with
  | profile a => cases a <;> decide
  | _ => decide

def list : String :=
  "id, first_name, last_name, nickname, password, email, country, created_at, updated_at"

end Column

inductive Value
  | text (s : String)
  | count (n : Nat)
  | time (t : Time.Timestamp)
  deriving DecidableEq

inductive Statement
  | insert (values : List Value)
  | update (changes : List (Column × Value)) (id : String)
  | delete (id : String)
  | select (conditions : List (FilterKey × String)) (limit offset : Nat)
  | createTable
  | createIndex (key : FilterKey)
  | ping
  | notify (channel payload : String)
  | listen (channel : String)
  deriving DecidableEq

/-- A part of a statement: words, or the place of a value. -/
inductive Piece
  | words (s : String)
  | value (v : Value)
  deriving DecidableEq

/-- A name in double quotes. It ends before a character that no name holds. -/
def quoteName (name : String) : String :=
  let kept := name.toList.takeWhile (· != '\x00')
  .ofList ('"' :: kept.flatMap (fun c => if c = '"' then ['"', '"'] else [c]) ++ ['"'])

namespace Statement

/-- A column, and the place of the value it is compared with or set to. -/
def pair (column : String) (v : Value) : List Piece := [.words (column ++ " = "), .value v]

/-- The conditions of a query, the first after `WHERE`, the others after `AND`. -/
def conditionPieces : List (FilterKey × String) → List Piece
  | [] => []
  | first :: others =>
    .words " WHERE " :: pair first.1.column (.text first.2) ++
      others.flatMap fun c => .words " AND " :: pair c.1.column (.text c.2)

def textColumn (a : Attribute) : String :=
  "                " ++ a.column ++ " VARCHAR(64) NOT NULL DEFAULT '',\n"

def pieces : Statement → List Piece
  | insert values =>
    .words ("INSERT INTO users (" ++ Column.list ++ ") VALUES (") ::
      (values.map .value).intersperse (.words ", ") ++ [.words ")"]
  | update changes id =>
    .words "UPDATE users SET " ::
      [Piece.words ", "].intercalate (changes.map fun c => pair c.1.name c.2) ++
      .words " WHERE " :: pair "id" (.text id)
  | delete id => .words "DELETE FROM users WHERE " :: pair "id" (.text id)
  | select conditions limit offset =>
    .words ("SELECT " ++ Column.list ++ " FROM users") :: conditionPieces conditions ++
      [.words " ORDER BY created_at, id LIMIT ", .value (.count limit),
        .words " OFFSET ", .value (.count offset)]
  | createTable =>
    [.words ("\n            CREATE TABLE IF NOT EXISTS users (\n" ++
      "                id VARCHAR(64) PRIMARY KEY,\n" ++
      String.join (Attribute.all.map textColumn) ++
      "                created_at TIMESTAMPTZ NOT NULL,\n" ++
      "                updated_at TIMESTAMPTZ NOT NULL\n            )\n            ")]
  | createIndex key =>
    [.words ("CREATE INDEX IF NOT EXISTS users_" ++ key.column ++ "_idx ON users (" ++
      key.column ++ ")")]
  | ping => [.words "SELECT 1"]
  | notify channel payload =>
    [.words "SELECT pg_notify(", .value (.text channel), .words ", ", .value (.text payload),
      .words ")"]
  | listen channel => [.words ("LISTEN " ++ quoteName channel)]

/-- The words, with the number of each place from `k` on. -/
def wordsFrom (k : Nat) : List Piece → String
  | [] => ""
  | .words s :: rest => s ++ wordsFrom k rest
  | .value _ :: rest => "$" ++ toString k ++ wordsFrom (k + 1) rest

def text (s : Statement) : String := wordsFrom 1 s.pieces

/-- The values that are sent beside the text, in the order of their places. -/
def binds (s : Statement) : List Value :=
  s.pieces.filterMap fun
    | .value v => some v
    | .words _ => none

end Statement

end Roster.Sql
