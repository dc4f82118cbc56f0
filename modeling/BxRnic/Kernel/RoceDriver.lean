/-
The two drivers together: the adapters of the Ethernet driver (bx_roce.c;
`mac_drv_probe` and `mac_drv_remove` in bx_mac.c) and the devices that the
RoCE driver makes of them (`bx_add`, `bx_remove` in
bx_roce_driver/bxroce_main.c).

The Ethernet driver keeps `bxpdata_list`. The RoCE driver, when it is
loaded, makes a device for each adapter of the list, and removes it again
when it is unloaded; it keeps its devices in `dev_list`. The ioctl of its
character device works on the first of these, and its notifier is called
for the addresses of every interface of the machine.

# Memory

Adapters and devices are named by numbers that do not come again. What
the kernel does with a pointer that leads nowhere is not said: it is
`broken` from there on.

# What is left out

What `bx_add` sets up in the hardware and the pools (Kernel/Pool,
Kernel/Resources), and which step of it fails; only whether the device has
been put on the list by then.
-/
import BxRnic.Lib.Run

namespace BxRnic.Kernel

-- ================================================================= state

/-- What `bx_add` comes to. -/
inductive AddAnswer
  /-- `ib_alloc_device` has no memory, or `idr_alloc` no id. -/
  | notListed
  /-- A later step fails. The device is freed, and stays on the list. -/
  | failed
  | added
deriving DecidableEq

/-- `struct mac_pdata`, as far as the RoCE driver goes. -/
structure Adapter where
  id : Nat
  rocedev : Option Nat
deriving DecidableEq

/-- The two drivers. -/
structure RoceDrivers where
  /-- `bxpdata_list` -/
  adapters : List Adapter
  nextAdapter : Nat
  /-- `dev_list` -/
  devList : List Nat
  /-- The devices there are, with `devinfo.pdata`. -/
  devs : Nat → Option Nat
  nextDev : Nat
  /-- The RoCE driver's module is loaded. -/
  loaded : Bool
  broken : Bool

/-- What happens to the drivers. -/
inductive RoceAct
  /-- `mac_drv_probe`, which succeeds. -/
  | probe
  /-- `mac_drv_remove` -/
  | remove (id : Nat)
  /-- `bx_init_module`; what `bx_add` comes to for each adapter. -/
  | load (answer : Nat → AddAnswer)
  /-- `bx_exit_module` -/
  | unload
  /-- `cm_rw_ioctl` -/
  | ioctl
  /-- `bxroce_inetaddr_event`, for an address that comes up on an adapter
  or on some other interface. -/
  | inetaddrUp (id : Option Nat)

namespace RoceDrivers

variable (r : RoceDrivers)

/-- The Ethernet driver alone, with no adapter. -/
def start : RoceDrivers where
  adapters := []
  nextAdapter := 0
  devList := []
  devs := fun _ => none
  nextDev := 0
  loaded := false
  broken := false

-- ============================================================== dev_list

/-- The entries of `dev_list` beside an entry of it, whose links are
written when it is taken out. -/
def beside (dev : Nat) : List Nat → List Nat
  | a :: b :: rest =>
      (if a = dev then [b] else if b = dev then [a] else [])
        ++ beside dev (b :: rest)
  | _ => []

/-- An entry that is no device. -/
def gone (dev : Nat) : Bool := (r.devs dev).isNone

/-- `list_add_tail`, of the next device: the last entry's link is
written. -/
def addTail : RoceDrivers :=
  { r with
    broken := r.broken || (r.devList.getLast?.map r.gone).getD false
    devList := r.devList ++ [r.nextDev] }

/-- `list_del` -/
def listDel (dev : Nat) : RoceDrivers :=
  { r with
    broken := r.broken || (beside dev r.devList).any r.gone
    devList := r.devList.erase dev }

-- =========================================================== add, remove

/-- `bx_add`: the device, if it returns one. -/
def bxAdd (pdata : Nat) : AddAnswer → Option Nat × RoceDrivers
  | .notListed => (none, { r with nextDev := r.nextDev + 1 })
  | .failed => (none, { r.addTail with nextDev := r.nextDev + 1 })
  | .added =>
      (some r.nextDev,
        { r.addTail with
          devs := Function.update r.devs r.nextDev (some pdata)
          nextDev := r.nextDev + 1 })

/-- `bx_remove`, which does not look whether there is a device. -/
def bxRemove : Option Nat → RoceDrivers
  | none => { r with broken := true }
  | some dev =>
      if r.gone dev then { r with broken := true }
      else
        { r.listDel dev with devs := Function.update r.devs dev none }

/-- The loop of `bx_roce_register_driver`: `mac_add_device` of each. -/
def registerDriver (answer : Nat → AddAnswer) :
    List Adapter → RoceDrivers → List Adapter × RoceDrivers
  | [], r => ([], r)
  | a :: rest, r =>
      let (dev, r) := r.bxAdd a.id (answer a.id)
      let (rest, r) := registerDriver answer rest r
      ({ a with rocedev := dev } :: rest, r)

/-- The loop of `bx_roce_unregister_driver`: `mac_del_device` of each. -/
def unregisterDriver : List Adapter → RoceDrivers → RoceDrivers
  | [], r => r
  | a :: rest, r => unregisterDriver rest (r.bxRemove a.rocedev)

-- ================================================================= calls

/-- `mac_register_dev`: the adapter is put on the list, and that is
all. -/
def probe : RoceDrivers :=
  { r with
    adapters := r.adapters ++ [⟨r.nextAdapter, none⟩]
    nextAdapter := r.nextAdapter + 1 }

/-- `mac_unregister_dev`, and the adapter is freed. -/
def remove (id : Nat) : RoceDrivers :=
  { r with adapters := r.adapters.filter fun a => a.id ≠ id }

/-- `bx_roce_register_driver` -/
def load (answer : Nat → AddAnswer) : RoceDrivers :=
  let (adapters, r') := registerDriver answer r.adapters r
  { r' with adapters := adapters, loaded := true }

/-- `bx_roce_unregister_driver` -/
def unload : RoceDrivers :=
  let r' := unregisterDriver r.adapters r
  { r' with
    adapters := r.adapters.map fun a => { a with rocedev := none }
    loaded := false }

/-- There is an adapter of this number. -/
def hasAdapter (id : Nat) : Bool := r.adapters.any fun a => a.id = id

/-- `cm_rw_ioctl`: the first of `dev_list`, which is the head itself where
it is empty, and what it says of its adapter. -/
def ioctl : RoceDrivers :=
  match r.devList.head?.bind r.devs with
  | none => { r with broken := true }
  | some pdata =>
      if r.hasAdapter pdata then r else { r with broken := true }

/-- `bxroce_add_addr`: the private data of the interface is taken for an
adapter's, and its device is followed. -/
def inetaddrUp : Option Nat → RoceDrivers
  | none => { r with broken := true }
  | some id =>
      match (r.adapters.find? fun a => a.id = id).bind (·.rocedev) with
      | none => { r with broken := true }
      | some dev => if r.gone dev then { r with broken := true } else r

/-- What happens to the drivers. The character device and the notifier
are there while the RoCE driver is, and it is loaded once at a time. -/
def step : RoceAct → RoceDrivers
  | .probe => if r.broken then r else r.probe
  | .remove id => if r.broken then r else r.remove id
  | .load answer =>
      if r.broken || r.loaded then r else r.load answer
  | .unload => if r.broken || !r.loaded then r else r.unload
  | .ioctl => if r.broken || !r.loaded then r else r.ioctl
  | .inetaddrUp id =>
      if r.broken || !r.loaded then r else r.inetaddrUp id

end RoceDrivers

end BxRnic.Kernel
