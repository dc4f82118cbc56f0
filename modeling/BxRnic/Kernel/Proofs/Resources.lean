/-
The life of an identifier: over every run of the four calls, ids are
unique among live objects, the table of queue pairs lists exactly the
live ones, and an id is marked exactly while its object lives.

# The relation to keep

Queue pairs and completion queues are each to be `Registered`
(Lib/Registered.lean) with the marks of their ids: the bits of a bitmap,
for id 1 of the queue pairs the GSI flag.

# Where the code leaves it

- A queue pair that is destroyed keeps its mark: the bit is cleared in
  the wrong place, and the flag of the GSI queue pair is never reset.
- A creation that fails once it has its id keeps the mark, but for the
  one path of `bxroce_create_cq` that frees it.
- With every id taken, a queue pair is created under id 0; the next one
  fails at the table and takes the first out of it.

`ResourceCall.Ok` is what remains.
-/
import BxRnic.Lib.Run
import BxRnic.Lib.Registered
import BxRnic.Kernel.Resources

namespace BxRnic.Kernel

open Run

-- ========================================================= the property

/-- The mark of a queue pair's id: the flag for the GSI queue pair, the
bit for the others. -/
def Dev.qpMarked (dev : Dev) (i : Nat) : Prop :=
  (if i = 1 then dev.isQp1Allocated else dev.allocatedQps i) = true

/-- The identifiers of a device are in order. Ids the device sets aside
(0 for queue pairs, 0 to 2 for completion queues) are marked from the
start and say nothing about objects. -/
structure Dev.Ids (dev : Dev) : Prop where
  qps : Registered Object.id 1 maxQp dev.qpMarked dev.qps
  cqs : Registered Object.id 3 maxCq (fun i => dev.allocatedCqs i = true) dev.cqs
  ordinary : ∀ qp ∈ dev.qps, qp.gsi = false → qp.id ≠ 1
  table : ∀ i addr, dev.qpTable i = some addr
    ↔ ∃ qp ∈ dev.qps, qp.addr = addr ∧ qp.id = i

/-- A creation gets to the point where it takes an id, and finds
none. -/
def ResourceCall.LacksId (dev : Dev) : ResourceCall → Prop
  | .createQp c =>
      c.early = 0
        ∧ if c.attrs.qpType = .gsi then dev.isQp1Allocated = true
        else allocCqqpresource dev.allocatedQps maxQp dev.nextQp = none
  | .createCq c =>
      c.early = 0
        ∧ allocCqqpresource dev.allocatedCqs maxCq dev.nextCq = none
  | .destroyQp _ => False
  | .destroyCq _ => False

/-- Every id the creation could get belongs to a live object. -/
def ResourceCall.IdsInUse (dev : Dev) : ResourceCall → Prop
  | .createQp c =>
      if c.attrs.qpType = .gsi then ∃ qp ∈ dev.qps, qp.id = 1
      else ∀ i, 2 ≤ i → i < maxQp → ∃ qp ∈ dev.qps, qp.id = i
  | .createCq _ =>
      ∀ i, 3 ≤ i → i < maxCq → ∃ cq ∈ dev.cqs, cq.id = i
  | .destroyQp _ => True
  | .destroyCq _ => True

/-- A call leaves the identifiers in order, and lacks one only when all
are in use. -/
structure ResourceCall.Kept (dev : Dev) (call : ResourceCall) : Prop where
  ids : (call.step dev).Ids
  lacks : call.LacksId dev → call.IdsInUse dev

-- ======================================================== the condition

/-- Nothing fails in a creation once it has an id. -/
def CreateQp.GoesThrough (dev : Dev) (c : CreateQp) : Prop :=
  dev.devLocked = false ∧ c.hwCreateOk = true
    ∧ (c.udata = false → c.allocWrIdTblOk = true)
    ∧ (c.udata = true → c.copyQpUresp = 0)

/-- The condition on a call and the device it meets. -/
def ResourceCall.Ok (dev : Dev) : ResourceCall → Prop
  | .createQp c =>
      c.early = 0 →
        if c.attrs.qpType = .gsi then
          dev.isQp1Allocated = false → c.GoesThrough dev
        else if ∀ i < maxQp, dev.allocatedQps i = true then
          dev.devLocked = true ∨ c.hwCreateOk = false
            ∨ dev.qpTable 0 = none
        else c.GoesThrough dev
  | .destroyQp addr =>
      dev.devLocked = true ∨ ∀ qp ∈ dev.qps, qp.addr = addr → qp.id = 0
  | .createCq c =>
      c.early = 0 → (∃ i < maxCq, dev.allocatedCqs i = false) →
        c.hwCreateOk = true
  | .destroyCq _ => True

-- ========================================================== the allocator

/-- What the allocator does when it finds an id: the id was not marked,
and now is. -/
theorem allocCqqpresource_some {resourceArray : Bitmap}
    {maxResources next resourceNum : Nat} {resourceArray' : Bitmap}
    {next' : Nat}
    (h : allocCqqpresource resourceArray maxResources next
      = some (resourceNum, resourceArray', next')) :
    resourceNum < maxResources ∧ resourceArray resourceNum = false
      ∧ resourceArray' = Bitmap.setBit resourceArray resourceNum := by
  unfold allocCqqpresource Bitmap.findFirstZeroBit at h
  simp only [ge_iff_le] at h
  split at h
  · -- nothing from the hint on: the search starts over
    split at h
    · cases h
    · rename_i hlt
      cases h
      exact ⟨Nat.lt_of_not_le hlt,
        Bitmap.findNextZeroBit_clear (Nat.lt_of_not_le hlt), rfl⟩
  · rename_i hlt
    cases h
    exact ⟨Nat.lt_of_not_le hlt,
      Bitmap.findNextZeroBit_clear (Nat.lt_of_not_le hlt), rfl⟩

/-- The allocator finds no id exactly when all are marked. -/
theorem allocCqqpresource_none_iff {resourceArray : Bitmap}
    {maxResources next : Nat} :
    allocCqqpresource resourceArray maxResources next = none
      ↔ ∀ i < maxResources, resourceArray i = true := by
  constructor
  · intro h i hi
    unfold allocCqqpresource Bitmap.findFirstZeroBit at h
    simp only [ge_iff_le] at h
    split at h
    · split at h
      · rename_i hfull
        exact Bitmap.findNextZeroBit_full hfull (Nat.zero_le i) hi
      · cases h
    · cases h
  · intro h
    cases halloc : allocCqqpresource resourceArray maxResources next with
    | none => rfl
    | some found =>
        obtain ⟨resourceNum, resourceArray', next'⟩ := found
        obtain ⟨hlt, hclear, -⟩ := allocCqqpresource_some halloc
        rw [h resourceNum hlt] at hclear
        cases hclear

-- ========================================================== the invariant

/-- What the exact condition rests on: the identifiers are in order, the
ids set aside stay marked, and objects are where they can be. -/
structure Dev.Inv (dev : Dev) : Prop where
  ids : dev.Ids
  qpsReserved : ∀ i < 2, dev.allocatedQps i = true
  cqsReserved : ∀ i < 3, dev.allocatedCqs i = true
  qpsBelow : ∀ qp ∈ dev.qps, qp.id < maxQp
  cqsRange : ∀ cq ∈ dev.cqs, 3 ≤ cq.id ∧ cq.id < maxCq
  qpsPlaced : Placed Object.addr dev.fresh dev.qps
  cqsPlaced : Placed Object.addr dev.fresh dev.cqs

/-- A device with nothing created yet. -/
theorem Dev.init_inv (devBits : Bitmap) : (Dev.init devBits).Inv where
  ids :=
    { qps :=
        { distinct := List.nodup_nil
          marked_iff := fun i hlo _ => by
            by_cases h : i = 1
            · simp [Dev.init, Dev.qpMarked, h]
            · have h0 : i ≠ 0 := by omega
              simp [Dev.init, Dev.qpMarked, Bitmap.setBit, h, h0] }
      cqs :=
        { distinct := List.nodup_nil
          marked_iff := fun i hlo _ => by
            have h0 : i ≠ 0 := by omega
            have h1 : i ≠ 1 := by omega
            have h2 : i ≠ 2 := by omega
            simp [Dev.init, Bitmap.setBit, h0, h1, h2] }
      ordinary := fun _ hqp => absurd hqp List.not_mem_nil
      table := fun i addr => by simp [Dev.init] }
  qpsReserved := fun i hi => by
    simp only [Dev.init, Bitmap.setBit_iff]
    omega
  cqsReserved := fun i hi => by
    simp only [Dev.init, Bitmap.setBit_iff]
    omega
  qpsBelow := fun _ hqp => absurd hqp List.not_mem_nil
  cqsRange := fun _ hcq => absurd hcq List.not_mem_nil
  qpsPlaced := ⟨List.nodup_nil, fun _ hqp => absurd hqp List.not_mem_nil⟩
  cqsPlaced := ⟨List.nodup_nil, fun _ hcq => absurd hcq List.not_mem_nil⟩

/-- The device is in order only under `p`, and under `p` keeps the
invariant. -/
structure Dev.Exact (p : Prop) (dev : Dev) : Prop where
  inv : p → dev.Inv
  only : dev.Ids → p

theorem Dev.Inv.exact {p : Prop} {dev : Dev} (h : dev.Inv) (hp : p) :
    dev.Exact p :=
  ⟨fun _ => h, fun _ => hp⟩

theorem Dev.exact_of_not {p : Prop} {dev : Dev} (h : ¬ dev.Ids)
    (hp : ¬ p) : dev.Exact p :=
  ⟨fun h' => absurd h' hp, fun h' => absurd h' h⟩

-- ========================================================== creating a QP

/-- The part of a device that says who has which id. -/
structure Dev.SameIds (dev dev' : Dev) : Prop where
  allocatedQps : dev'.allocatedQps = dev.allocatedQps
  allocatedCqs : dev'.allocatedCqs = dev.allocatedCqs
  qpTable : dev'.qpTable = dev.qpTable
  isQp1Allocated : dev'.isQp1Allocated = dev.isQp1Allocated
  qps : dev'.qps = dev.qps
  cqs : dev'.cqs = dev.cqs
  fresh : dev'.fresh = dev.fresh

theorem Dev.SameIds.ids_iff {dev dev' : Dev} (h : dev.SameIds dev') :
    dev'.Ids ↔ dev.Ids := by
  obtain ⟨a, b, c, d, e, f, g, h, i, j, k, l⟩ := dev
  obtain ⟨a', b', c', d', e', f', g', h', i', j', k', l'⟩ := dev'
  obtain ⟨rfl, rfl, rfl, rfl, rfl, rfl, rfl⟩ := h
  exact ⟨fun h => ⟨h.qps, h.cqs, h.ordinary, h.table⟩,
    fun h => ⟨h.qps, h.cqs, h.ordinary, h.table⟩⟩

theorem Dev.SameIds.inv {dev dev' : Dev} (h : dev.SameIds dev')
    (hinv : dev.Inv) : dev'.Inv where
  ids := h.ids_iff.2 hinv.ids
  qpsReserved := h.allocatedQps ▸ hinv.qpsReserved
  cqsReserved := h.allocatedCqs ▸ hinv.cqsReserved
  qpsBelow := h.qps ▸ hinv.qpsBelow
  cqsRange := h.cqs ▸ hinv.cqsRange
  qpsPlaced := by rw [h.qps, h.fresh]; exact hinv.qpsPlaced
  cqsPlaced := by rw [h.cqs, h.fresh]; exact hinv.cqsPlaced

/-- The device with a queue pair added under `id`. -/
def Dev.withQp (dev : Dev) (id : Nat) (gsi : Bool) : Dev :=
  { dev with
    qpTable := fun i => if i = id then some dev.fresh else dev.qpTable i
    isQp1Allocated := gsi || dev.isQp1Allocated
    qps := ⟨dev.fresh, id, gsi⟩ :: dev.qps
    fresh := dev.fresh + 1 }

/-- A creation that goes through, where the slot of its id is free. -/
theorem createQpWith_goes {dev : Dev} {c : CreateQp} {id : Nat}
    (hid : id < 1024) (htable : dev.qpTable id = none)
    (h : c.GoesThrough dev) :
    (dev.createQpWith c id).2
      = dev.withQp id (decide (c.attrs.qpType = .gsi)) := by
  obtain ⟨hlock, hhw, htbl, hcopy⟩ := h
  have htbl' : ¬ (c.udata = false ∧ c.allocWrIdTblOk = false) := by
    rintro ⟨hudata, hfail⟩
    rw [htbl hudata] at hfail
    cases hfail
  have hcopy' : ¬ (c.udata = true ∧ c.copyQpUresp ≠ 0) :=
    fun hfail => hfail.2 (hcopy hfail.1)
  unfold Dev.createQpWith Dev.withQp
  simp only [hlock, hhw, htbl', hcopy', hid, htable, Bool.false_eq_true,
    Bool.true_eq_false, if_false, and_self, if_true]

/-- A creation that does not, where the slot of its id is free, changes
nothing about the ids. -/
theorem createQpWith_fails {dev : Dev} {c : CreateQp} (id : Nat)
    (htable : dev.qpTable id = none) (h : ¬ c.GoesThrough dev) :
    dev.SameIds (dev.createQpWith c id).2 := by
  have hslot : (fun i => if i = id then none else dev.qpTable i)
      = dev.qpTable := by
    funext i
    by_cases hi : i = id
    · rw [if_pos hi, hi, htable]
    · rw [if_neg hi]
  have hslot' : (fun i => if i = id then none
      else if i = id then some dev.fresh else dev.qpTable i)
      = dev.qpTable := by
    funext i
    by_cases hi : i = id
    · rw [if_pos hi, hi, htable]
    · rw [if_neg hi, if_neg hi]
  unfold Dev.createQpWith Dev.mapErr Dev.destroyQpInner
  by_cases hlock : dev.devLocked = true
  · rw [if_pos hlock]
    exact ⟨rfl, rfl, rfl, rfl, rfl, rfl, rfl⟩
  rw [if_neg hlock]
  by_cases hhw : c.hwCreateOk = false
  · rw [if_pos hhw]
    exact ⟨rfl, rfl, rfl, rfl, rfl, rfl, rfl⟩
  rw [if_neg hhw]
  by_cases htbl : c.udata = false ∧ c.allocWrIdTblOk = false
  · rw [if_pos htbl]
    exact ⟨rfl, rfl, hslot, rfl, rfl, rfl, rfl⟩
  rw [if_neg htbl]
  by_cases hid : id < 1024 ∧ dev.qpTable id = none
  · rw [if_pos hid]
    by_cases hcopy : c.udata = true ∧ c.copyQpUresp ≠ 0
    · simp only [if_pos hcopy]
      exact ⟨rfl, rfl, hslot', rfl, rfl, rfl, rfl⟩
    · refine absurd ⟨?_, ?_, ?_, ?_⟩ h
      · simpa using hlock
      · simpa using hhw
      · intro hudata
        by_contra hfail
        exact htbl ⟨hudata, by simpa using hfail⟩
      · intro hudata
        by_contra hfail
        exact hcopy ⟨hudata, hfail⟩
  · rw [if_neg hid]
    exact ⟨rfl, rfl, hslot, rfl, rfl, rfl, rfl⟩

/-- `dev'` is `dev` with `id` taken for a queue pair that is not there
yet. -/
structure Dev.Takes (dev : Dev) (id : Nat) (gsi : Bool) (dev' : Dev) :
    Prop where
  marked : ∀ i, 1 ≤ i → i < maxQp →
    (dev'.qpMarked i ↔ i = id ∨ dev.qpMarked i)
  reserved : ∀ i < 2, dev'.allocatedQps i = true
  allocatedCqs : dev'.allocatedCqs = dev.allocatedCqs
  qpTable : dev'.qpTable = dev.qpTable
  qps : dev'.qps = dev.qps
  cqs : dev'.cqs = dev.cqs
  fresh : dev'.fresh = dev.fresh
  below : id < maxQp
  free : ∀ qp ∈ dev.qps, qp.id ≠ id
  ordinary : gsi = false → id ≠ 1
  flag : gsi = true → dev'.isQp1Allocated = true

namespace Dev.Takes

variable {dev dev' : Dev} {id : Nat} {gsi : Bool}

/-- The slot of a free id is empty. -/
theorem slot (h : dev.Takes id gsi dev') (hids : dev.Ids) :
    dev'.qpTable id = none := by
  rw [h.qpTable]
  cases hslot : dev.qpTable id with
  | none => rfl
  | some addr =>
      obtain ⟨qp, hqp, -, hid⟩ := (hids.table id addr).1 hslot
      exact absurd hid (h.free qp hqp)

/-- The queue pair joins the table. -/
theorem withQp_table (h : dev.Takes id gsi dev') (hids : dev.Ids)
    (i addr : Nat) :
    (dev'.withQp id gsi).qpTable i = some addr
      ↔ ∃ qp ∈ (dev'.withQp id gsi).qps, qp.addr = addr ∧ qp.id = i := by
  simp only [Dev.withQp, List.mem_cons, exists_eq_or_imp, h.qpTable,
    h.qps, h.fresh]
  by_cases hi : i = id
  · rw [if_pos hi, hi]
    constructor
    · intro heq
      exact Or.inl ⟨Option.some.inj heq, rfl⟩
    · rintro (⟨haddr, -⟩ | ⟨qp, hqp, -, hid⟩)
      · rw [haddr]
      · exact absurd hid (h.free qp hqp)
  · rw [if_neg hi, hids.table i addr]
    constructor
    · exact fun hold => Or.inr hold
    · rintro (⟨-, hid⟩ | hold)
      · exact absurd hid.symm hi
      · exact hold

/-- The queue pair joins the device. -/
theorem withQp_inv (h : dev.Takes id gsi dev') (hinv : dev.Inv) :
    (dev'.withQp id gsi).Inv where
  ids :=
    { qps := by
        have hmarked : (dev'.withQp id gsi).qpMarked = dev'.qpMarked := by
          cases gsi with
          | false => rfl
          | true =>
              funext i
              simp only [Dev.qpMarked, Dev.withQp, Bool.true_or,
                h.flag rfl]
        rw [hmarked]
        show Registered Object.id 1 maxQp dev'.qpMarked
          (⟨dev'.fresh, id, gsi⟩ :: dev'.qps)
        rw [h.qps]
        exact hinv.ids.qps.cons h.free h.marked
      cqs := by
        show Registered Object.id 3 maxCq
          (fun i => dev'.allocatedCqs i = true) dev'.cqs
        rw [h.allocatedCqs, h.cqs]
        exact hinv.ids.cqs
      ordinary := fun qp hqp hgsi => by
        cases List.mem_cons.1 hqp with
        | inl heq =>
            rw [heq] at hgsi ⊢
            exact h.ordinary hgsi
        | inr hold => exact hinv.ids.ordinary qp (h.qps ▸ hold) hgsi
      table := h.withQp_table hinv.ids }
  qpsReserved := h.reserved
  cqsReserved := by
    show ∀ i < 3, dev'.allocatedCqs i = true
    rw [h.allocatedCqs]
    exact hinv.cqsReserved
  qpsBelow := fun qp hqp => by
    cases List.mem_cons.1 hqp with
    | inl heq =>
        rw [heq]
        exact h.below
    | inr hold => exact hinv.qpsBelow qp (h.qps ▸ hold)
  cqsRange := by
    show ∀ cq ∈ dev'.cqs, 3 ≤ cq.id ∧ cq.id < maxCq
    rw [h.cqs]
    exact hinv.cqsRange
  qpsPlaced := by
    show Placed Object.addr (dev'.fresh + 1)
      (⟨dev'.fresh, id, gsi⟩ :: dev'.qps)
    rw [h.qps, h.fresh]
    exact hinv.qpsPlaced.cons rfl
  cqsPlaced := by
    show Placed Object.addr (dev'.fresh + 1) dev'.cqs
    rw [h.cqs, h.fresh]
    exact hinv.cqsPlaced.mono (Nat.le_succ _)

/-- Left without its queue pair, the id is lost. -/
theorem not_ids (h : dev.Takes id gsi dev') (hid : 0 < id) :
    ¬ dev'.Ids := by
  intro hids
  refine Registered.not_of_marked hid h.below
    ((h.marked id hid h.below).2 (Or.inl rfl)) ?_ hids.qps
  rw [h.qps]
  exact h.free

/-- A creation with an id of its own keeps the identifiers in order iff
it goes through. -/
theorem createQpWith_exact (h : dev.Takes id gsi dev') (hinv : dev.Inv)
    (hid : 0 < id) {c : CreateQp}
    (hgsi : gsi = decide (c.attrs.qpType = .gsi)) :
    (dev'.createQpWith c id).2.Exact (c.GoesThrough dev') := by
  have hslot := h.slot hinv.ids
  by_cases hgoes : c.GoesThrough dev'
  · rw [createQpWith_goes h.below hslot hgoes, ← hgsi]
    exact (h.withQp_inv hinv).exact hgoes
  · have hsame := createQpWith_fails id hslot hgoes
    exact Dev.exact_of_not (fun h' => h.not_ids hid (hsame.ids_iff.1 h'))
      hgoes

end Dev.Takes

/-- The id of the GSI queue pair, taken. -/
theorem Dev.takes_gsi {dev : Dev} (hinv : dev.Inv)
    (hflag : dev.isQp1Allocated = false) :
    dev.Takes 1 true { dev with isQp1Allocated := true } where
  marked := fun i _ _ => by
    by_cases h : i = 1
    · simp [Dev.qpMarked, h]
    · simp [Dev.qpMarked, h]
  reserved := hinv.qpsReserved
  allocatedCqs := rfl
  qpTable := rfl
  qps := rfl
  cqs := rfl
  fresh := rfl
  below := by decide
  free := fun qp hqp hid => by
    have hmarked := (hinv.ids.qps.marked_iff 1 (Nat.le_refl 1)
      (by decide)).2 ⟨qp, hqp, hid⟩
    rw [Dev.qpMarked, if_pos rfl, hflag] at hmarked
    cases hmarked
  ordinary := fun h => by cases h
  flag := fun _ => rfl

/-- An id from the bitmap, taken. -/
theorem Dev.takes_alloc {dev : Dev} (hinv : dev.Inv) {qpNum : Nat}
    {allocatedQps : Bitmap} {nextQp : Nat}
    (h : allocCqqpresource dev.allocatedQps maxQp dev.nextQp
      = some (qpNum, allocatedQps, nextQp)) :
    dev.Takes qpNum false
        { dev with allocatedQps := allocatedQps, nextQp := nextQp }
      ∧ 0 < qpNum := by
  obtain ⟨hlt, hclear, rfl⟩ := allocCqqpresource_some h
  -- the bits set aside are set
  have hge : 2 ≤ qpNum := by
    by_contra hlt2
    rw [hinv.qpsReserved qpNum (Nat.lt_of_not_le hlt2)] at hclear
    cases hclear
  refine ⟨?_, by omega⟩
  exact
    { marked := fun i _ _ => by
        by_cases h1 : i = 1
        · have hne : 1 ≠ qpNum := by omega
          simp [Dev.qpMarked, h1, hne]
        · simp only [Dev.qpMarked, h1, if_false, Bitmap.setBit_iff]
      reserved := fun i hi => Bitmap.setBit_mono (hinv.qpsReserved i hi)
      allocatedCqs := rfl
      qpTable := rfl
      qps := rfl
      cqs := rfl
      fresh := rfl
      below := hlt
      free := fun qp hqp hid => by
        have hmarked := (hinv.ids.qps.marked_iff qpNum (by omega) hlt).2
          ⟨qp, hqp, hid⟩
        rw [Dev.qpMarked, if_neg (by omega), hclear] at hmarked
        cases hmarked
      ordinary := fun _ => by omega
      flag := fun h => by cases h }

/-- Id 0, when the slot is empty: nothing is marked for it. -/
theorem Dev.takes_zero {dev : Dev} (hinv : dev.Inv)
    (hslot : dev.qpTable 0 = none) : dev.Takes 0 false dev where
  marked := fun i hlo _ => by
    have h : i ≠ 0 := by omega
    simp [h]
  reserved := hinv.qpsReserved
  allocatedCqs := rfl
  qpTable := rfl
  qps := rfl
  cqs := rfl
  fresh := rfl
  below := by decide
  free := fun qp hqp hid => by
    have hstored := (hinv.ids.table 0 qp.addr).2 ⟨qp, hqp, rfl, hid⟩
    rw [hslot] at hstored
    cases hstored
  ordinary := fun _ => by decide
  flag := fun h => by cases h

/-- With every id taken, a creation empties slot 0 if it finds it in
use and gets that far; otherwise it does no harm. -/
theorem createQpWith_zero_exact {dev : Dev} (hinv : dev.Inv)
    {c : CreateQp} (hgsi : c.attrs.qpType ≠ .gsi) :
    (dev.createQpWith c 0).2.Exact
      (dev.devLocked = true ∨ c.hwCreateOk = false
        ∨ dev.qpTable 0 = none) := by
  cases hslot : dev.qpTable 0 with
  | none =>
      refine Dev.Inv.exact ?_ (Or.inr (Or.inr rfl))
      by_cases hgoes : c.GoesThrough dev
      · rw [createQpWith_goes (by decide) hslot hgoes]
        have htakes := (Dev.takes_zero hinv hslot).withQp_inv hinv
        simpa [hgsi] using htakes
      · exact (createQpWith_fails _ hslot hgoes).inv hinv
  | some addr =>
      obtain ⟨qp, hqp, -, hid⟩ := (hinv.ids.table 0 addr).1 hslot
      -- the queue pair of slot 0 stays, its slot does not
      have hlost : ¬ (dev.mapErr 0).Ids := by
        intro hids
        have hstored := (hids.table 0 qp.addr).2 ⟨qp, hqp, rfl, hid⟩
        simp [Dev.mapErr, Dev.destroyQpInner] at hstored
      unfold Dev.createQpWith
      by_cases hlock : dev.devLocked = true
      · rw [if_pos hlock]
        exact hinv.exact (Or.inl hlock)
      rw [if_neg hlock]
      by_cases hhw : c.hwCreateOk = false
      · rw [if_pos hhw]
        have hsame : dev.SameIds { dev with devLocked := true } :=
          ⟨rfl, rfl, rfl, rfl, rfl, rfl, rfl⟩
        exact (hsame.inv hinv).exact (Or.inr (Or.inl hhw))
      rw [if_neg hhw]
      refine Dev.exact_of_not ?_ (by simp [hlock, hhw])
      split
      · exact hlost
      · simp only [hslot, reduceCtorEq, and_false, if_false]
        exact hlost

/-- A creation of a queue pair. -/
theorem createQp_exact {dev : Dev} (hinv : dev.Inv) (c : CreateQp) :
    (dev.createQp c).2.Exact ((ResourceCall.createQp c).Ok dev) := by
  unfold Dev.createQp
  simp only [ResourceCall.Ok]
  by_cases hearly : c.early = 0
  swap
  · rw [if_pos hearly]
    exact hinv.exact fun h => absurd h hearly
  rw [if_neg (not_not.2 hearly)]
  simp only [hearly, forall_const]
  by_cases hgsi : c.attrs.qpType = .gsi
  · -- the GSI queue pair has an id of its own
    simp only [if_pos hgsi]
    by_cases hflag : dev.isQp1Allocated = true
    · rw [if_pos hflag]
      exact hinv.exact fun h => by
        rw [hflag] at h
        cases h
    · have hflag' : dev.isQp1Allocated = false := by simpa using hflag
      rw [if_neg hflag]
      simp only [hflag', forall_const]
      exact (Dev.takes_gsi hinv hflag').createQpWith_exact hinv
        Nat.one_pos (by simp [hgsi])
  · simp only [if_neg hgsi]
    cases halloc : allocCqqpresource dev.allocatedQps maxQp dev.nextQp with
    | none =>
        simp only [if_pos (allocCqqpresource_none_iff.1 halloc)]
        exact createQpWith_zero_exact hinv hgsi
    | some found =>
        obtain ⟨qpNum, allocatedQps, nextQp⟩ := found
        obtain ⟨htakes, hpos⟩ := Dev.takes_alloc hinv halloc
        have hnotfull : ¬ ∀ i < maxQp, dev.allocatedQps i = true := by
          intro hfull
          rw [allocCqqpresource_none_iff.2 hfull] at halloc
          cases halloc
        simp only [if_neg hnotfull]
        exact htakes.createQpWith_exact hinv hpos (by simp [hgsi])

-- ======================================================== destroying a QP

/-- A queue pair leaves the device, its mark apart. -/
theorem Dev.Inv.withoutQp {dev : Dev} (hinv : dev.Inv) {qp : Object}
    (hqp : qp ∈ dev.qps) (hid : qp.id = 0) (devBits : Bitmap) :
    Dev.Inv
      { dev with
        devBits := devBits
        qpTable := fun i => if i = qp.id then none else dev.qpTable i
        qps := dev.qps.filter fun qp' => qp'.addr ≠ qp.addr } where
  ids :=
    { qps := hinv.ids.qps.erase hinv.qpsPlaced hqp fun i hlo _ => by
        have hne : i ≠ qp.id := by omega
        show dev.qpMarked i ↔ i ≠ qp.id ∧ dev.qpMarked i
        simp [hne]
      cqs := hinv.ids.cqs
      ordinary := fun qp' hqp' =>
        hinv.ids.ordinary qp' (List.mem_of_mem_filter hqp')
      table := fun i addr => by
        have hleft : ∀ qp' : Object,
            qp' ∈ dev.qps.filter (fun qp' => qp'.addr ≠ qp.addr)
              ↔ qp' ∈ dev.qps ∧ qp'.id ≠ qp.id :=
          fun qp' => hinv.ids.qps.mem_erase hinv.qpsPlaced hqp
        simp only [hleft]
        by_cases hi : i = qp.id
        · rw [if_pos hi]
          refine iff_of_false (by simp) ?_
          rintro ⟨qp', ⟨-, hne⟩, -, hid'⟩
          exact hne (hid'.trans hi)
        · rw [if_neg hi, hinv.ids.table i addr]
          constructor
          · rintro ⟨qp', hqp', haddr, hid'⟩
            exact ⟨qp', ⟨hqp', hid' ▸ hi⟩, haddr, hid'⟩
          · rintro ⟨qp', ⟨hqp', -⟩, haddr, hid'⟩
            exact ⟨qp', hqp', haddr, hid'⟩ }
  qpsReserved := hinv.qpsReserved
  cqsReserved := hinv.cqsReserved
  qpsBelow := fun qp' hqp' =>
    hinv.qpsBelow qp' (List.mem_of_mem_filter hqp')
  cqsRange := hinv.cqsRange
  qpsPlaced := hinv.qpsPlaced.filter _
  cqsPlaced := hinv.cqsPlaced

/-- Destroying a queue pair leaves its mark, which only id 0 can
afford. -/
theorem destroyQp_exact {dev : Dev} (hinv : dev.Inv) (addr : Nat) :
    (dev.destroyQp addr).2.Exact ((ResourceCall.destroyQp addr).Ok dev) := by
  unfold Dev.destroyQp
  simp only [ResourceCall.Ok]
  cases hfind : dev.qps.find? fun qp => qp.addr = addr with
  | none =>
      refine hinv.exact (Or.inr fun qp hqp haddr => ?_)
      have hnot := List.find?_eq_none.1 hfind qp hqp
      exact absurd haddr (by simpa using hnot)
  | some qp =>
      have hqp := List.mem_of_find?_eq_some hfind
      have haddr : qp.addr = addr := by
        simpa using List.find?_some hfind
      by_cases hlock : dev.devLocked = true
      · simp only [if_pos hlock]
        exact hinv.exact (Or.inl hlock)
      simp only [if_neg hlock, ← haddr]
      by_cases hid : qp.id = 0
      · refine (hinv.withoutQp hqp hid _).exact (Or.inr ?_)
        intro qp' hqp' haddr'
        rw [hinv.qpsPlaced.eq_of_addr hqp' hqp haddr', hid]
      · refine Dev.exact_of_not (fun hids => ?_) ?_
        · exact hinv.ids.qps.not_erase hinv.qpsPlaced hqp
            (Nat.one_le_iff_ne_zero.2 hid) (hinv.qpsBelow qp hqp)
            hids.qps
        · intro hok
          cases hok with
          | inl h => exact hlock h
          | inr h => exact hid (h qp hqp rfl)

-- ===================================================== completion queues

/-- Only the bits of completion queues have changed, to mark the same
ids. -/
private theorem Dev.Inv.withCqs {dev : Dev} (hinv : dev.Inv)
    {allocatedCqs : Bitmap} {nextCq : Nat} {cqTable : Nat → Option Nat}
    {cqs : List Object} {fresh : Nat}
    (hcqs : Registered Object.id 3 maxCq
      (fun i => allocatedCqs i = true) cqs)
    (hreserved : ∀ i < 3, allocatedCqs i = true)
    (hrange : ∀ cq ∈ cqs, 3 ≤ cq.id ∧ cq.id < maxCq)
    (hplaced : Placed Object.addr fresh cqs) (hfresh : dev.fresh ≤ fresh) :
    Dev.Inv
      { dev with
        allocatedCqs := allocatedCqs, nextCq := nextCq
        cqTable := cqTable, cqs := cqs, fresh := fresh } where
  ids :=
    { qps := hinv.ids.qps
      cqs := hcqs
      ordinary := hinv.ids.ordinary
      table := hinv.ids.table }
  qpsReserved := hinv.qpsReserved
  cqsReserved := hreserved
  qpsBelow := hinv.qpsBelow
  cqsRange := hrange
  qpsPlaced := hinv.qpsPlaced.mono hfresh
  cqsPlaced := hplaced

/-- A creation of a completion queue loses its id only when the device
has no memory for it. -/
theorem createCq_exact {dev : Dev} (hinv : dev.Inv) (c : CreateCq) :
    (dev.createCq c).2.Exact ((ResourceCall.createCq c).Ok dev) := by
  unfold Dev.createCq
  simp only [ResourceCall.Ok]
  by_cases hearly : c.early = 0
  swap
  · rw [if_pos hearly]
    exact hinv.exact fun h => absurd h hearly
  rw [if_neg (not_not.2 hearly)]
  cases halloc : allocCqqpresource dev.allocatedCqs maxCq dev.nextCq with
  | none =>
      refine hinv.exact fun _ hclear => ?_
      obtain ⟨i, hi, hbit⟩ := hclear
      rw [allocCqqpresource_none_iff.1 halloc i hi] at hbit
      cases hbit
  | some found =>
      obtain ⟨cqNum, allocatedCqs, nextCq⟩ := found
      obtain ⟨hlt, hclear, rfl⟩ := allocCqqpresource_some halloc
      dsimp only
      have hge : 3 ≤ cqNum := by
        by_contra hlt3
        rw [hinv.cqsReserved cqNum (Nat.lt_of_not_le hlt3)] at hclear
        cases hclear
      have hfree : ∀ cq ∈ dev.cqs, cq.id ≠ cqNum := by
        intro cq hcq hid
        have hmarked := (hinv.ids.cqs.marked_iff cqNum hge hlt).2
          ⟨cq, hcq, hid⟩
        rw [hclear] at hmarked
        cases hmarked
      by_cases hhw : c.hwCreateOk = false
      · -- the id is not given back on this path
        rw [if_pos hhw]
        refine Dev.exact_of_not (fun hids => ?_) fun hok => ?_
        · exact Registered.not_of_marked hge hlt
            (Bitmap.setBit_iff.2 (Or.inl rfl)) hfree hids.cqs
        · rw [hok hearly ⟨cqNum, hlt, hclear⟩] at hhw
          cases hhw
      rw [if_neg hhw]
      have hok : c.early = 0 → (∃ i < maxCq, dev.allocatedCqs i = false) →
          c.hwCreateOk = true := fun _ _ => by simpa using hhw
      by_cases hcopy : c.ibCtx = true ∧ c.copyCqUresp ≠ 0
      · rw [if_pos hcopy]
        have hback : freeCqqpresource
            (Bitmap.setBit dev.allocatedCqs cqNum) cqNum
            = dev.allocatedCqs := by
          funext i
          by_cases hi : i = cqNum
          · simp [freeCqqpresource, Bitmap.clearBit, hi, hclear]
          · simp [freeCqqpresource, Bitmap.clearBit, Bitmap.setBit, hi]
        rw [hback]
        exact (hinv.withCqs hinv.ids.cqs hinv.cqsReserved hinv.cqsRange
          hinv.cqsPlaced (Nat.le_refl _)).exact hok
      · rw [if_neg hcopy]
        refine Dev.Inv.exact (hinv.withCqs ?_ ?_ ?_ ?_ (Nat.le_succ _)) hok
        · exact hinv.ids.cqs.cons hfree fun i _ _ => Bitmap.setBit_iff
        · exact fun i hi => Bitmap.setBit_mono (hinv.cqsReserved i hi)
        · intro cq hcq
          cases List.mem_cons.1 hcq with
          | inl heq =>
              rw [heq]
              exact ⟨hge, hlt⟩
          | inr hold => exact hinv.cqsRange cq hold
        · exact hinv.cqsPlaced.cons rfl

/-- Destroying a completion queue gives its id back. -/
theorem destroyCq_exact {dev : Dev} (hinv : dev.Inv) (addr : Nat) :
    (dev.destroyCq addr).2.Exact ((ResourceCall.destroyCq addr).Ok dev) := by
  unfold Dev.destroyCq
  simp only [ResourceCall.Ok]
  cases hfind : dev.cqs.find? fun cq => cq.addr = addr with
  | none => exact hinv.exact trivial
  | some cq =>
      have hcq := List.mem_of_find?_eq_some hfind
      have haddr : cq.addr = addr := by
        simpa using List.find?_some hfind
      simp only [← haddr]
      refine Dev.Inv.exact (hinv.withCqs ?_ ?_ ?_ ?_ (Nat.le_refl _)) trivial
      · exact hinv.ids.cqs.erase hinv.cqsPlaced hcq fun i _ _ =>
          Bitmap.clearBit_iff
      · intro i hi
        have hrange := hinv.cqsRange cq hcq
        exact Bitmap.clearBit_iff.2 ⟨by omega, hinv.cqsReserved i hi⟩
      · exact fun cq' hcq' =>
          hinv.cqsRange cq' (List.mem_of_mem_filter hcq')
      · exact hinv.cqsPlaced.filter _

-- ============================================================== every run

/-- The step lemma. -/
theorem step_exact {dev : Dev} (hinv : dev.Inv) (call : ResourceCall) :
    (call.step dev).Exact (call.Ok dev) := by
  cases call with
  | createQp c => exact createQp_exact hinv c
  | destroyQp addr => exact destroyQp_exact hinv addr
  | createCq c => exact createCq_exact hinv c
  | destroyCq addr => exact destroyCq_exact hinv addr

/-- While the identifiers are in order, a creation lacks an id only when
all are in use. -/
theorem idsInUse_of_lacksId {dev : Dev} (hinv : dev.Inv)
    {call : ResourceCall} (hlacks : call.LacksId dev) :
    call.IdsInUse dev := by
  cases call with
  | createQp c =>
      obtain ⟨-, hlacks⟩ := hlacks
      simp only [ResourceCall.IdsInUse]
      by_cases hgsi : c.attrs.qpType = .gsi
      · rw [if_pos hgsi] at hlacks ⊢
        refine (hinv.ids.qps.marked_iff 1 (Nat.le_refl 1) (by decide)).1 ?_
        rw [Dev.qpMarked, if_pos rfl, hlacks]
      · rw [if_neg hgsi] at hlacks ⊢
        intro i hlo hhi
        refine (hinv.ids.qps.marked_iff i (by omega) hhi).1 ?_
        rw [Dev.qpMarked, if_neg (by omega)]
        exact allocCqqpresource_none_iff.1 hlacks i hhi
  | destroyQp addr => trivial
  | createCq c =>
      intro i hlo hhi
      exact (hinv.ids.cqs.marked_iff i hlo hhi).1
        (allocCqqpresource_none_iff.1 hlacks.2 i hhi)
  | destroyCq addr => trivial

/-- From an initialised device, every call of a run keeps the
identifiers in order iff every call meets `ResourceCall.Ok` where it is
made. -/
theorem ids_kept_iff (devBits : Bitmap) (calls : List ResourceCall) :
    Each ResourceCall.step (fun dev call => call.Kept dev)
        (Dev.init devBits) calls
      ↔ Each ResourceCall.step (fun dev call => call.Ok dev)
        (Dev.init devBits) calls := by
  refine each_iff_each_of_inv (I := Dev.Inv) ?_ ?_ (Dev.init_inv devBits)
  · intro dev call hinv
    have hexact := step_exact hinv call
    constructor
    · exact fun h => hexact.only h.ids
    · exact fun h => ⟨(hexact.inv h).ids, idsInUse_of_lacksId hinv⟩
  · intro dev call hinv h
    have hexact := step_exact hinv call
    exact hexact.inv (hexact.only h.ids)

/-- One queue pair, created and destroyed: the device has no queue pair
left, but its id stays marked. -/
theorem destroyed_qp_keeps_id :
    let attrs : QpInitAttr :=
      { sendCq := true, qpType := .rc, srq := false, maxSendWr := 16
        maxRecvWr := 16, maxInlineData := 0, maxSendSge := 1
        maxRecvSge := 1 }
    let c : CreateQp :=
      { attrs := attrs, udata := false, copyFromUdataOk := true
        kzallocQpOk := true, kzallocInfoOk := true, hwCreateOk := true
        allocWrIdTblOk := true, copyQpUresp := 0 }
    let calls : List ResourceCall := [.createQp c, .destroyQp 0]
    let dev := exec ResourceCall.step (Dev.init fun _ => false) calls
    dev.qps = [] ∧ dev.allocatedQps 2 = true
      ∧ ¬ Each ResourceCall.step (fun dev call => call.Kept dev)
        (Dev.init fun _ => false) calls := by
  intro attrs c calls dev
  have hqps : dev.qps = [] := by decide +kernel
  have hbit : dev.allocatedQps 2 = true := by decide +kernel
  refine ⟨hqps, hbit, fun h => ?_⟩
  have hids : dev.Ids := h.2.1.ids
  obtain ⟨qp, hqp, -⟩ := (hids.qps.marked_iff 2 (by decide)
    (by decide)).1 hbit
  rw [hqps] at hqp
  cases hqp

end BxRnic.Kernel
