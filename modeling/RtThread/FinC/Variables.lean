import Mathlib.Data.List.Basic

/-!
# The variables of the command language

`global_variable`, as `finsh_var.c` fills it.
-/

namespace RtThread.FinC

def finshNameMax : Nat := 16

def finshVariableMax : Nat := 8

inductive FinshType where
  | unknown
  | void
  | voidp
  | char
  | uchar
  | charp
  | short
  | ushort
  | shortp
  | int
  | uint
  | intp
  | long
  | ulong
  | longp
  deriving DecidableEq

structure FinshVar where
  name : List Char
  type : FinshType

def finshVarInit : List FinshVar := List.replicate finshVariableMax ⟨[], .unknown⟩

def finshVarInsert (globalVariable : List FinshVar) (name : List Char) (type : FinshType) :
    Option (List FinshVar) :=
  if globalVariable.any fun var => var.name = name.take finshNameMax then none
  else
    match globalVariable.findIdx? fun var => var.type = .unknown with
    | none => none
    | some empty => some (globalVariable.set empty ⟨name.take finshNameMax, type⟩)

end RtThread.FinC
