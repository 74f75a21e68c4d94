import Nicc.Common
import Nicc.Lib.Coverage

namespace Nicc
open Lib

/-- `kPOSTED` covers both the receive queue and the send queue. -/
inductive BufState
  | kPOSTED
  | kAPP_OWNED_BUF
  | kFREE_BUF
  deriving DecidableEq, Repr

/-- Pointers to a Buffer are values of `P`. `next` is `none` until it has been assigned. -/
structure Buffer (P : Type) where
  buf : Nat
  classSize : Nat
  lkey : Nat
  length : Nat
  next : Option P
  state : BufState

namespace Buffer

variable {P : Type}

def new (buf classSize lkey : Nat) : Buffer P := ⟨buf, classSize, lkey, 0, none, .kFREE_BUF⟩

def block (b : Buffer P) : Block := ⟨b.buf, b.classSize⟩

@[simp] theorem new_buf (buf classSize lkey : Nat) :
    (new buf classSize lkey : Buffer P).buf = buf := rfl

@[simp] theorem new_classSize (buf classSize lkey : Nat) :
    (new buf classSize lkey : Buffer P).classSize = classSize := rfl

@[simp] theorem new_lkey (buf classSize lkey : Nat) :
    (new buf classSize lkey : Buffer P).lkey = lkey := rfl

@[simp] theorem block_new (buf classSize lkey : Nat) :
    (new buf classSize lkey : Buffer P).block = ⟨buf, classSize⟩ := rfl

end Buffer

end Nicc
