import CommentLint.Setting.Basic

/-
  Tables under construction.

  A path of names leads through tables, and through a list of
  tables to the last of them.  Tables on the way that are
  missing are made.

  Key definitions include:
    * `Toml.Fields`
    * `Toml.put`
    * `Toml.modifyAt?`
-/

namespace CommentLint

namespace Toml

/- The fields of a table in their order. -/
abbrev Fields :=
  List (String × Setting)

/- Give a field a value; a new field comes last. -/
def put
    (name : String)
    (value : Setting) :
    Fields → Fields
  | [] => [(name, value)]
  | (n, v) :: rest =>
      if n = name then (n, value) :: rest
      else (n, v) :: put name value rest

/-
  Change the table at a path.  `throughLists` says whether a
  list of tables may stand on the way.
-/
def modifyAt?
    (throughLists : Bool)
    (change : Fields → Option Fields) :
    List String → Fields → Option Fields
  | [], fields => change fields
  | name :: path, fields =>
      match fields.lookup name with
      | none =>
          (modifyAt? throughLists change path []).map
            fun inner => put name (.table inner) fields
      | some (.table inner) =>
          (modifyAt? throughLists change path inner).map
            fun inner => put name (.table inner) fields
      | some (.list items) =>
          if throughLists then
            match items.getLast? with
            | some (.table inner) =>
                (modifyAt? throughLists change path inner).map
                  fun inner =>
                    put name
                      (.list (items.dropLast ++ [.table inner]))
                      fields
            | _ => none
          else none
      | some _ => none

/- Add a field that a table does not have. -/
def addField?
    (name : String)
    (value : Setting)
    (fields : Fields) : Option Fields :=
  match fields.lookup name with
  | some _ => none
  | none => some (fields ++ [(name, value)])

/- Add an empty table to a list of tables, or start one. -/
def addTable?
    (name : String)
    (fields : Fields) : Option Fields :=
  match fields.lookup name with
  | none => some (fields ++ [(name, .list [.table []])])
  | some (.list items) =>
      some (put name (.list (items ++ [.table []])) fields)
  | some _ => none

end Toml

end CommentLint
