import DocumentAi.Lib.Dict
import DocumentAi.Lib.Pool
import DocumentAi.Services

/-!
# `utils/base_crud_table.py`: the operations that the admin tables share

An item is kept beside its key. `_floats_to_decimal` is left out: a number here is a rational.

| here | there |
| --- | --- |
| `CrudTable`  | the class attributes of a subclass of `BaseCrudTable` |
| `buildKey`   | `_build_key` |
| `create`, `update`, `deactivate`, `delete` | the methods of the same names |
| `Op`, `run`  | the requests of `services/ddb.py` on one table |
-/

namespace DocumentAi.BaseCrudTable

inductive AttrValue where
  | none
  | bool (b : Bool)
  | number (q : Rat)
  | string (s : String)
  /-- An ISO time. -/
  | time (t : Timestamp)
  | list (xs : List AttrValue)
  | map (m : List (String × AttrValue))

def AttrValue.isNone : AttrValue → Bool
  | none => true
  | _    => false

structure CrudTable where
  /-- `None` when the table is not configured. -/
  tableName    : Option String
  pkField      : String
  skField      : Option String := none
  activeField  : String := "isActive"
  createdField : String := "createdAt"
  updatedField : String := "updatedAt"

/-- The value of the partition key and of the sort key, where there is one. -/
abbrev Key : Type := String × Option String

abbrev schema : Dynamo.Schema := ⟨String, fun _ => AttrValue⟩

abbrev Item : Type := Dynamo.Item schema

namespace CrudTable

def hasSortKey (T : CrudTable) : Bool := T.skField.any (· ≠ "")

def hasActiveField (T : CrudTable) : Bool := T.activeField ≠ ""

def buildKey (T : CrudTable) (pk : String) (sk : Option String) : Key :=
  (pk, if T.hasSortKey then sk.filter (· ≠ "") else none)

/-- The key has the attributes of the table's key schema, and none is empty. -/
def validKey (T : CrudTable) (key : Key) : Bool := key.1 ≠ "" && key.2.isSome == T.hasSortKey

/-- No attribute is named twice, is empty or belongs to the key. -/
def validUpdate (T : CrudTable) (u : Dynamo.Update schema) (clear : List String) : Bool :=
  let names := u.actions.map (·.target) ++ clear
  names.Nodup && names.all fun n => n ≠ "" && n ≠ T.pkField && some n ≠ T.skField

end CrudTable

/-! ## Requests -/

inductive Op where
  | getItem (key : Key)
  | putItem (key : Key) (item : Item)
  | updateItem (key : Key) (u : Dynamo.Update schema) (clear : List String)
  | deleteItem (key : Key)
  | now

def Op.Res : Op → Type
  | getItem _ => Option Item
  | now       => Timestamp
  | _         => Unit

abbrev sig : Effect.Sig := ⟨Op, Op.Res, Exc⟩

abbrev Prog (α : Type) : Type := Effect.Prog sig α

def call (op : Op) : Prog op.Res := Effect.Prog.perform (S := sig) op

abbrev World : Type := Dynamo.Table Key schema

structure Choice where
  fail : Option Exc := none
  now  : Timestamp := 0

/-- The key of a request. -/
def Op.key : Op → Option Key
  | getItem key | putItem key _ | updateItem key .. | deleteItem key => some key
  | now => none

def notConfigured : Exc := .httpException 503 "Storage not configured"

/-- Execute a request of a configured table on a valid key. -/
def run (T : CrudTable) (w : World) (ch : Choice) : (op : Op) → sig.Ans op × World
  | .getItem key      => (.ok (w.item key), w)
  | .putItem key item => (.ok (), w.put key item)
  | .updateItem key u clear =>
    match T.validUpdate u clear, w.updateRemoving key u clear with
    | true, .ok w' => (.ok (), w')
    | _, _         => (.error (.ofRejection .validation), w)
  | .deleteItem key   => (.ok (), w.delete key)
  | .now              => (.ok ch.now, w)

def exec (T : CrudTable) (w : World) (op : Op) (ch : Choice) : Option (sig.Ans op × World) :=
  match op.key, ch.fail with
  | none, _       => some (run T w ch op)
  | some _, some e => some (.error e, w)
  | some key, none =>
    if T.tableName.isNone then some (.error notConfigured, w)
    else if T.validKey key then some (run T w ch op)
    else some (.error (.ofRejection .validation), w)

/-! ## Methods -/

section
variable (T : CrudTable)

def itemExists (key : Key) : Exc := .valueError ("Item already exists: " ++ key.1 ++ "/" ++ key.2.getD "")

/-- `item.setdefault(a, v)`. -/
def setDefault (a : String) (v : AttrValue) (it : Item) : Item :=
  Function.update it a (some ((it a).getD v))

/-- The item that `create` stores. -/
def newItem (now : Timestamp) (it : Item) : Item :=
  let it := setDefault T.updatedField (.time now) (setDefault T.createdField (.time now) it)
  if T.hasActiveField then setDefault T.activeField (.bool true) it else it

def assertNew (key : Key) : Prog Unit := do
  match ← call (.getItem key) with
  | some _ => throw (itemExists key)
  | none   => return ()

def create (pk : String) (sk : Option String) (item : Item) (checkExists : Bool := true) :
    Prog Unit := do
  let key := T.buildKey pk sk
  if checkExists then assertNew key
  let now ← call .now
  call (.putItem key (newItem T now item))

/-- The attributes that `update` sets. -/
def updates (now : Timestamp) (fields : List (String × AttrValue)) : Dynamo.Update schema where
  actions := (Dict.assign T.updatedField (.time now) (fields.filter fun f => !f.2.isNone)).map
    fun f => .set f.1 f.2

def update (pk : String) (sk : Option String) (clearFields : List String)
    (fields : List (String × AttrValue)) : Prog Unit := do
  let key := T.buildKey pk sk
  match ← call (.getItem key) with
  | none   => throw (.valueError "Item not found")
  | some _ =>
    if (fields.filter fun f => !f.2.isNone).isEmpty && clearFields.isEmpty then
      throw (.valueError "No fields to update")
    let now ← call .now
    call (.updateItem key (updates T now fields) clearFields)
    match ← call (.getItem key) with
    | none   => throw (.valueError "Update failed")
    | some _ => return ()

def deactivate (pk : String) (sk : Option String) : Prog Bool := do
  let key := T.buildKey pk sk
  match ← call (.getItem key) with
  | none   => return false
  | some _ =>
    let now ← call .now
    call (.updateItem key
      { actions := [.set T.activeField (.bool false), .set T.updatedField (.time now)] } [])
    return true

def delete (pk : String) (sk : Option String) : Prog Bool := do
  let key := T.buildKey pk sk
  match ← call (.getItem key) with
  | none   => return false
  | some _ =>
    call (.deleteItem key)
    return true

end

/-! ## The system of one table -/

inductive Entry where
  | create (pk : String) (sk : Option String) (item : Item) (checkExists : Bool)
  | update (pk : String) (sk : Option String) (clearFields : List String)
      (fields : List (String × AttrValue))
  | deactivate (pk : String) (sk : Option String)
  | delete (pk : String) (sk : Option String)

def Entry.body (T : CrudTable) : Entry → Prog Unit
  | create pk sk item checkExists => BaseCrudTable.create T pk sk item checkExists
  | update pk sk clear fields     => BaseCrudTable.update T pk sk clear fields
  | deactivate pk sk              => do let _ ← BaseCrudTable.deactivate T pk sk
  | delete pk sk                  => do let _ ← BaseCrudTable.delete T pk sk

abbrev system (T : CrudTable) : Effect.Sys sig where
  World  := World
  Choice := Choice
  exec   := exec T
  Entry  := Entry
  body   := Entry.body T

abbrev Config (T : CrudTable) : Type := Effect.Config (system T)
abbrev Move (T : CrudTable) : Type := Effect.Move (system T)
abbrev Thread (T : CrudTable) : Type := Effect.Thread (system T)

end DocumentAi.BaseCrudTable
