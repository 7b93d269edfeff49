/-
  MockSchema.Schema.Name — the names in a schema node: its control keywords, field keys
  (`name`, or `**name` to splice an object into the row) and pairs (`inner` or
  `outer:inner`). A name is a word.
-/

import MockSchema.Text.Class
import MockSchema.Value.Basic

namespace MockSchema

namespace Keyword

def helper : String := "__helper__"
def entity : String := "__from__"
def name : String := "__name__"
def filter : String := "__filter__"
def sort : String := "__sort__"
def reverse : String := "__reverse__"
def only : String := "__only__"
def except : String := "__except__"
def rename : String := "__rename__"
def item : String := "__item__"

def all : List String := [helper, entity, name, filter, sort, reverse, only, except, rename, item]

end Keyword

/-- Keywords steer the evaluation of a node; every other key is a field. -/
def isKeyword (key : String) : Bool := Keyword.all.contains key

def isName (s : String) : Bool := Text.isWord s.toList

/-- How a field's value lands in the row: under its key, or each of its own fields under a
key that begins with `lead`. -/
inductive Target where
  | plain (key : String)
  | splice (lead : String)
  deriving DecidableEq, Repr

def Target.ofKey? (key : String) : Option Target :=
  match key.toList with
  | '*' :: '*' :: cs => if Text.isWord cs then some (.splice (String.ofList cs)) else none
  | cs => if Text.isWord cs then some (.plain key) else none

/-- A name with, possibly, another name before it. -/
structure NamePair where
  outer : Option String
  inner : String
  deriving DecidableEq, Repr

def NamePair.ofText? (s : String) : Option NamePair :=
  let cs := s.toList
  match cs.dropWhile (· != ':') with
  | ':' :: inner =>
    let outer := cs.takeWhile (· != ':')
    if Text.isWord outer && Text.isWord inner then
      some ⟨some (String.ofList outer), String.ofList inner⟩
    else none
  | _ => if Text.isWord cs then some ⟨none, s⟩ else none

end MockSchema
