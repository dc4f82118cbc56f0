/-
The circular lists of the user library (libbxroce/list.h), store by store,
and `dev->mr_list` as it lies in memory.

A link is a field of a `struct userlist_head`, which has an address. The
debug checks are compiled out.

# The list of regions

User/DeregMr has the list as a list. Here it is what the links say: the
elements are found by walking them, and the search stops at the head.
-/
import BxRnic.Lib.Apart
import BxRnic.Lib.LinkedList
import BxRnic.User.DeregMr

namespace BxRnic.User

open Window (Prog)

-- ================================================================ list.h

/-- The fields of `struct userlist_head`. -/
inductive Link
  | next
  | prev
deriving DecidableEq

/-- The memory of the links: a field at an address. -/
abbrev Links := Nat × Link → Nat

/-- `USERLIST_POISON1` and `USERLIST_POISON2` -/
def USERLIST_POISON1 : Nat := 0x100
def USERLIST_POISON2 : Nat := 0x200

/-- `INIT_USERLIST_HEAD` -/
def initUserlistHead (userlist : Nat) : Prog (Nat × Link) Nat :=
  .write (userlist, .next) userlist <|
  .write (userlist, .prev) userlist .done

/-- `__userlist_add` -/
def userlistAddBetween (new prev next : Nat) : Prog (Nat × Link) Nat :=
  .write (next, .prev) new <|
  .write (new, .next) next <|
  .write (new, .prev) prev <|
  .write (prev, .next) new .done

/-- `userlist_add_tail` -/
def userlistAddTail (new head : Nat) : Prog (Nat × Link) Nat :=
  .read (head, .prev) fun prev => userlistAddBetween new prev head

/-- `userlist_del`: `__userlist_del` between the neighbours, and the
entry is poisoned. -/
def userlistDel (entry : Nat) : Prog (Nat × Link) Nat :=
  .read (entry, .prev) fun prev =>
  .read (entry, .next) fun next =>
  .write (next, .prev) prev <|
  .write (prev, .next) next <|
  .write (entry, .next) USERLIST_POISON1 <|
  .write (entry, .prev) USERLIST_POISON2 .done

/-- The links forward and backward. -/
def Links.nextOf (links : Links) (addr : Nat) : Nat := links (addr, .next)
def Links.prevOf (links : Links) (addr : Nat) : Nat := links (addr, .prev)

-- ========================================================== dev->mr_list

/-- `dev->mr_list` in memory: the links, and the elements around them. -/
structure MrNodes where
  links : Links
  node : Nat → MrElem

namespace MrNodes

/-- The list of a device that has just been allocated. -/
def empty (head : Nat) (links : Links) (node : Nat → MrElem) : MrNodes :=
  ⟨(initUserlistHead head).exec links, node⟩

/-- What `bxroce_reg_mr` does to the list: the element is filled in, and
linked if the kernel's answer has few enough segments. -/
def reg (head : Nat) (e : MrElem) (numSg : Nat) (s : MrNodes) : MrNodes :=
  { links :=
      if numSg ≤ 256 then (userlistAddTail e.addr head).exec s.links
      else s.links
    node := Function.update s.node e.addr e }

/-- The search of `bxroce_dereg_mr`: `userlist_for_each_entry`, up to the
region or to the head. -/
def search (head vmr fuel : Nat) (s : MrNodes) : Option (Option Nat) :=
  LinkedList.find s.links.nextOf head (fun addr => isMr vmr (s.node addr))
    fuel (s.links.nextOf head)

/-- What `bxroce_dereg_mr` does to the list; none where it goes on with a
cursor that is no element, or `fuel` does not suffice. -/
def dereg (head vmr fuel : Nat) (s : MrNodes) : Option MrNodes :=
  match s.search head vmr fuel with
  | some (some addr) =>
      some { s with links := (userlistDel addr).exec s.links }
  | _ => none

end MrNodes

-- ================================================================= calls

/-- A call that changes the list. -/
inductive MrAct
  | reg (e : MrElem) (numSg : Nat)
  | dereg (env : DeregEnv) (vmr : Nat)

/-- The call, on the list as a list. -/
def MrStores.act (dev : MrStores) : MrAct → Option MrStores
  | .reg e numSg => some (listMr e numSg dev)
  | .dereg env vmr =>
      match deregMr env dev vmr with
      | .returns _ dev => some dev
      | .wild => none

/-- The call, on the list in memory. -/
def MrNodes.act (head fuel : Nat) (s : MrNodes) : MrAct → Option MrNodes
  | .reg e numSg => some (s.reg head e numSg)
  | .dereg _ vmr => s.dereg head vmr fuel

/-- `malloc` gives each element memory that is in nobody's use. -/
def FreshRun (head : Nat) : MrStores → List MrAct → Prop
  | _, [] => True
  | dev, a :: rest =>
      (match a with
        | .reg e _ => e.addr ∉ head :: dev.mrList.map MrElem.addr
        | .dereg _ _ => True)
      ∧ ∀ dev', dev.act a = some dev' → FreshRun head dev' rest

end BxRnic.User
