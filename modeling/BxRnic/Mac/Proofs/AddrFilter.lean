/-
The address filter never loses a subscribed address.

# Exact mode

Whatever mixture of lists and clearing `mac_set_mac_addn_addrs` comes to,
it writes one entry after the other, from the first to the last
(`setEntries`): as many as there are, those without an address last. An
address without an entry has the mode that takes its kind instead
(`Exact`).

# Hash mode

The index of an address is the top of its checksum, as many bits of it as
the table has an index (`hashIndex_eq`), so that it stays in the words
that are written.
-/
import BxRnic.Mac.RxFilter

namespace BxRnic.Mac

variable {regs : MacRegs} {macReg : Nat}

-- =============================================================== entries

/-- The high word of an entry for an address, or of a cleared one. -/
def entryHi (ha : Option MacAddr) : U32 :=
  (ha.map fun a => Field.set a.hi 31 1 1).getD 0

/-- The low word. -/
def entryLo (ha : Option MacAddr) : U32 := (ha.map MacAddr.lo).getD 0

/-- Entries written one after the other. -/
def MacRegs.setEntries (regs : MacRegs) (macReg : Nat) :
    List (Option MacAddr) → MacRegs
  | [] => regs
  | ha :: rest =>
      (regs.setMacReg ha macReg).1.setEntries (macReg + 8) rest

theorem setMacReg_eq (ha : Option MacAddr) :
    regs.setMacReg ha macReg
      = ((regs.writel (entryHi ha) macReg).writel (entryLo ha)
          (macReg + 4), macReg + 8) :=
  rfl

theorem setMacRegs_eq (addrs : List MacAddr) (addnMacs : Nat) :
    regs.setMacRegs macReg addnMacs addrs
      = (regs.setEntries macReg (addrs.map some),
          macReg + 8 * addrs.length, addnMacs - addrs.length) := by
  induction addrs generalizing regs macReg addnMacs with
  | nil => rfl
  | cons ha rest ih =>
      simp only [MacRegs.setMacRegs, setMacReg_eq, ih, List.map_cons,
        MacRegs.setEntries, List.length_cons, Prod.mk.injEq, true_and]
      omega

theorem clearMacRegs_eq (addnMacs : Nat) :
    regs.clearMacRegs macReg addnMacs
      = regs.setEntries macReg (List.replicate addnMacs none) := by
  induction addnMacs generalizing regs macReg with
  | zero => rfl
  | succ addnMacs ih =>
      simp only [MacRegs.clearMacRegs, setMacReg_eq, ih,
        List.replicate_succ, MacRegs.setEntries]

theorem setEntries_append (es es' : List (Option MacAddr)) :
    regs.setEntries macReg (es ++ es')
      = (regs.setEntries macReg es).setEntries (macReg + 8 * es.length)
          es' := by
  induction es generalizing regs macReg with
  | nil => rfl
  | cons ha rest ih =>
      rw [List.cons_append, MacRegs.setEntries, ih, MacRegs.setEntries,
        List.length_cons]
      congr 1
      omega

/-- Nothing is written outside the entries. -/
theorem setEntries_frame {es : List (Option MacAddr)} {x : Nat}
    (h : x < macReg ∨ macReg + 8 * es.length ≤ x) :
    regs.setEntries macReg es x = regs x := by
  induction es generalizing regs macReg with
  | nil => rfl
  | cons ha rest ih =>
      rw [List.length_cons] at h
      rw [MacRegs.setEntries, ih (by omega), setMacReg_eq]
      simp only [MacRegs.writel]
      rw [Function.update_of_ne (by omega), Function.update_of_ne (by omega)]

/-- Each entry is written. -/
theorem setEntries_get {es : List (Option MacAddr)} {k : Nat}
    (h : k < es.length) :
    regs.setEntries macReg es (macReg + 8 * k) = entryHi es[k]
      ∧ regs.setEntries macReg es (macReg + 8 * k + 4)
        = entryLo es[k] := by
  induction es generalizing regs macReg k with
  | nil => exact absurd h (Nat.not_lt_zero k)
  | cons ha rest ih =>
      rw [MacRegs.setEntries]
      cases k with
      | zero =>
          rw [setEntries_frame (by omega), setEntries_frame (by omega),
            setMacReg_eq]
          simp [MacRegs.writel]
      | succ k =>
          have hk : k < rest.length := by simpa using h
          rw [show macReg + 8 * (k + 1) = macReg + 8 + 8 * k by omega]
          simpa using ih hk

/-- From an address on, two register files are the same. -/
def AgreeFrom (a : Nat) (r r' : MacRegs) : Prop := ∀ x, a ≤ x → r x = r' x

theorem setEntries_agree {r r' : MacRegs} {a : Nat}
    (h : AgreeFrom a r r') (es : List (Option MacAddr)) :
    AgreeFrom a (r.setEntries macReg es) (r'.setEntries macReg es) := by
  induction es generalizing r r' macReg with
  | nil => exact h
  | cons ha rest ih =>
      rw [MacRegs.setEntries, MacRegs.setEntries]
      refine ih fun x hx => ?_
      simp only [setMacReg_eq, MacRegs.writel, Function.update_apply]
      rw [h x hx]

-- ================================================================= modes

namespace FilterDev

variable {dev : FilterDev}

/-- The device passes every frame. -/
def Promisc (dev : FilterDev) : Prop :=
  dev.regs.getField MAC_PFR 0 1 = 1

/-- The device passes every multicast frame. -/
def AllMulti (dev : FilterDev) : Prop :=
  dev.regs.getField MAC_PFR 4 1 = 1

/-- Two devices differ in no more than the registers of the modes. -/
structure SameBut (dev dev' : FilterDev) : Prop where
  hwFeat : dev'.hwFeat = dev.hwFeat
  netdev : dev'.netdev = dev.netdev
  regs : ∀ x, x ≠ MAC_PFR → x ≠ MAC_VLANTR → dev'.regs x = dev.regs x

theorem SameBut.refl (dev : FilterDev) : dev.SameBut dev :=
  ⟨rfl, rfl, fun _ _ _ => rfl⟩

theorem SameBut.trans {dev' dev'' : FilterDev} (h : dev.SameBut dev')
    (h' : dev'.SameBut dev'') : dev.SameBut dev'' :=
  ⟨h'.hwFeat.trans h.hwFeat, h'.netdev.trans h.netdev,
    fun x hx hv => (h'.regs x hx hv).trans (h.regs x hx hv)⟩

theorem sameBut_setField {pos len : Nat} {val : U32} :
    dev.SameBut (dev.setField MAC_PFR pos len val) :=
  ⟨rfl, rfl, fun _ hx _ => Function.update_of_ne hx _ _⟩

theorem sameBut_setFields {fields : List (Nat × Nat × U32)} :
    dev.SameBut (dev.setFields MAC_VLANTR fields) :=
  ⟨rfl, rfl, fun _ _ hx => Function.update_of_ne hx _ _⟩

theorem regs_setField {addr pos len : Nat} {val : U32} :
    (dev.setField addr pos len val).regs
      = Function.update dev.regs addr
        (Field.set (dev.regs addr) pos len val) :=
  rfl

/-- A field that is written reads back. -/
theorem getField_setField {addr pos len : Nat} {val : U32}
    (h : pos + len ≤ 32) :
    (dev.setField addr pos len val).regs.getField addr pos len
      = Field.get val 0 len := by
  rw [MacRegs.getField, regs_setField, Function.update_self,
    Field.get_set h]

/-- A field apart from the one that is written is left alone. -/
theorem getField_setField_of_apart {addr pos len pos' len' : Nat}
    {val : U32} (h : pos + len ≤ 32) (h' : pos' + len' ≤ 32)
    (hap : pos + len ≤ pos' ∨ pos' + len' ≤ pos) :
    (dev.setField addr pos len val).regs.getField addr pos' len'
      = dev.regs.getField addr pos' len' := by
  rw [MacRegs.getField, regs_setField, Function.update_self,
    Field.get_set_of_apart h h' hap, MacRegs.getField]

/-- So is a register other than the one that is written. -/
theorem setField_of_ne {addr pos len x : Nat} {val : U32}
    (h : x ≠ addr) : (dev.setField addr pos len val).regs x = dev.regs x :=
  Function.update_of_ne h _ _

theorem setFields_of_ne {fields : List (Nat × Nat × U32)}
    {addr x : Nat} (h : x ≠ addr) :
    (dev.setFields addr fields).regs x = dev.regs x :=
  Function.update_of_ne h _ _

/-- In particular `MAC_PFR`, when `MAC_VLANTR` is written. -/
theorem getField_setFields_vlantr {fields : List (Nat × Nat × U32)}
    {pos len : Nat} :
    (dev.setFields MAC_VLANTR fields).regs.getField MAC_PFR pos len
      = dev.regs.getField MAC_PFR pos len := by
  rw [MacRegs.getField, setFields_of_ne (by decide), MacRegs.getField]

/-- What `mac_set_promiscuous_mode` does: nothing if the mode is as it is
wanted, or it sets the mode and the VLAN filter with it. -/
theorem setPromiscuousMode_cases (dev : FilterDev) (enable : Bool) :
    (dev.regs.getField MAC_PFR 0 1 = (if enable then 1 else 0)
        ∧ dev.setPromiscuousMode enable = dev)
      ∨ (enable = true ∧ dev.setPromiscuousMode enable
        = (dev.setField MAC_PFR 0 1 1).disableRxVlanFiltering)
      ∨ (enable = false ∧ dev.netdev.features.vlanCtagFilter = true
        ∧ dev.setPromiscuousMode enable
          = (dev.setField MAC_PFR 0 1 0).enableRxVlanFiltering)
      ∨ (enable = false ∧ dev.netdev.features.vlanCtagFilter = false
        ∧ dev.regs.getField MAC_PFR 0 1 ≠ 0
        ∧ dev.setPromiscuousMode enable = dev.setField MAC_PFR 0 1 0) := by
  by_cases hsame :
      dev.regs.getField MAC_PFR 0 1 = (if enable then 1 else 0)
  · refine Or.inl ⟨hsame, ?_⟩
    simp only [setPromiscuousMode, if_pos hsame]
  · cases enable with
    | true =>
        refine Or.inr (Or.inl ⟨rfl, ?_⟩)
        exact if_neg hsame
    | false =>
        cases hf : dev.netdev.features.vlanCtagFilter with
        | true =>
            refine Or.inr (Or.inr (Or.inl ⟨rfl, rfl, ?_⟩))
            simp only [setPromiscuousMode, if_neg hsame]
            exact if_pos hf
        | false =>
            refine Or.inr (Or.inr (Or.inr ⟨rfl, rfl, hsame, ?_⟩))
            simp only [setPromiscuousMode, if_neg hsame]
            exact if_neg (ne_true_of_eq_false hf)

theorem setAllMulticastMode_cases (dev : FilterDev) (enable : Bool) :
    (dev.regs.getField MAC_PFR 4 1 = (if enable then 1 else 0)
        ∧ dev.setAllMulticastMode enable = dev)
      ∨ dev.setAllMulticastMode enable
        = dev.setField MAC_PFR 4 1 (if enable then 1 else 0) := by
  by_cases hsame :
      dev.regs.getField MAC_PFR 4 1 = (if enable then 1 else 0)
  · refine Or.inl ⟨hsame, ?_⟩
    simp only [setAllMulticastMode, if_pos hsame]
  · refine Or.inr ?_
    simp only [setAllMulticastMode, if_neg hsame]

theorem sameBut_enableRxVlanFiltering :
    dev.SameBut dev.enableRxVlanFiltering :=
  sameBut_setField.trans sameBut_setFields

theorem sameBut_setPromiscuousMode (enable : Bool) :
    dev.SameBut (dev.setPromiscuousMode enable) := by
  obtain ⟨-, heq⟩ | ⟨-, heq⟩ | ⟨-, -, heq⟩ | ⟨-, -, -, heq⟩ :=
    dev.setPromiscuousMode_cases enable
  · rw [heq]
    exact .refl dev
  · exact heq ▸ sameBut_setField.trans sameBut_setField
  · exact heq ▸ sameBut_setField.trans sameBut_enableRxVlanFiltering
  · exact heq ▸ sameBut_setField

theorem sameBut_setAllMulticastMode (enable : Bool) :
    dev.SameBut (dev.setAllMulticastMode enable) := by
  obtain ⟨-, heq⟩ | heq := dev.setAllMulticastMode_cases enable
  · rw [heq]
    exact .refl dev
  · exact heq ▸ sameBut_setField

/-- The VLAN filter is apart from the promiscuous mode. -/
theorem pr_setVtfe {val : U32} :
    (dev.setField MAC_PFR 16 1 val).regs.getField MAC_PFR 0 1
      = dev.regs.getField MAC_PFR 0 1 :=
  getField_setField_of_apart (by decide) (by decide) (by decide)

theorem pr_enableRxVlanFiltering :
    dev.enableRxVlanFiltering.regs.getField MAC_PFR 0 1
      = dev.regs.getField MAC_PFR 0 1 := by
  rw [enableRxVlanFiltering, getField_setFields_vlantr, pr_setVtfe]

/-- The promiscuous mode is as it was set. -/
theorem pr_setPromiscuousMode (enable : Bool) :
    (dev.setPromiscuousMode enable).regs.getField MAC_PFR 0 1
      = if enable then 1 else 0 := by
  obtain ⟨hsame, heq⟩ | ⟨rfl, heq⟩ | ⟨rfl, -, heq⟩ | ⟨rfl, -, -, heq⟩ :=
    dev.setPromiscuousMode_cases enable
  · rw [heq, hsame]
  · rw [heq, disableRxVlanFiltering, pr_setVtfe,
      getField_setField (by decide)]
    rfl
  · rw [heq, pr_enableRxVlanFiltering, getField_setField (by decide)]
    rfl
  · rw [heq, getField_setField (by decide)]
    rfl

theorem allMulti_setAllMulticastMode :
    (dev.setAllMulticastMode true).AllMulti := by
  obtain ⟨hsame, heq⟩ | heq := dev.setAllMulticastMode_cases true
  · rw [heq]
    exact hsame
  · rw [heq, AllMulti, getField_setField (by decide)]
    rfl

/-- The registers from the first entry on are not those of the modes. -/
theorem SameBut.agreeFrom {dev' : FilterDev} (h : dev.SameBut dev') :
    AgreeFrom MAC_MACA1HR dev'.regs dev.regs := by
  intro x hx
  unfold MAC_MACA1HR at hx
  exact h.regs x (by unfold MAC_PFR; omega) (by unfold MAC_VLANTR; omega)

-- ============================================================ exact mode

/-- What the exact mode comes to: entries written from the first to the
last, and for the addresses without one the mode that takes them. -/
structure Exact (dev after : FilterDev) (entries : List (Option MacAddr)) :
    Prop where
  hwFeat : after.hwFeat = dev.hwFeat
  length : entries.length = dev.hwFeat.addnMac
  listed : ∀ a, some a ∈ entries → a ∈ dev.netdev.uc ++ dev.netdev.mc
  written : AgreeFrom MAC_MACA1HR after.regs
    (dev.regs.setEntries MAC_MACA1HR entries)
  low : ∀ x < MAC_MACA1HR, x ≠ MAC_PFR → x ≠ MAC_VLANTR →
    after.regs x = dev.regs x
  uc : ∀ a ∈ dev.netdev.uc, some a ∈ entries ∨ after.Promisc
  mc : ∀ a ∈ dev.netdev.mc,
    some a ∈ entries ∨ after.Promisc ∨ after.AllMulti

/-- Entries written behind a mode that was set. -/
theorem setEntries_behind {dev' : FilterDev} (h : dev.SameBut dev')
    {macReg : Nat} (hreg : MAC_MACA1HR ≤ macReg)
    (es : List (Option MacAddr)) :
    AgreeFrom MAC_MACA1HR (dev'.regs.setEntries macReg es)
        (dev.regs.setEntries macReg es)
      ∧ ∀ x < MAC_MACA1HR, dev'.regs.setEntries macReg es x
        = dev'.regs x :=
  ⟨setEntries_agree h.agreeFrom es,
    fun _ hx => setEntries_frame (Or.inl (by omega))⟩

/-- More unicast addresses than entries. -/
theorem exact_ucOverflow (h : dev.hwFeat.addnMac < dev.netdev.uc.length) :
    dev.Exact dev.setMacAddnAddrs
      (List.replicate dev.hwFeat.addnMac none) := by
  have hsame := dev.sameBut_setPromiscuousMode true
  have hafter : dev.setMacAddnAddrs.regs
      = (dev.setPromiscuousMode true).regs.setEntries MAC_MACA1HR
        (List.replicate dev.hwFeat.addnMac none) := by
    simp only [setMacAddnAddrs, if_pos h, clearMacRegs_eq]
  obtain ⟨hhigh, hlow⟩ := setEntries_behind hsame (Nat.le_refl _)
    (List.replicate dev.hwFeat.addnMac none)
  have hpr : dev.setMacAddnAddrs.Promisc := by
    rw [Promisc, MacRegs.getField, hafter, hlow _ (by decide)]
    exact pr_setPromiscuousMode true
  exact
    { hwFeat := by
        simp only [setMacAddnAddrs, if_pos h]
        exact hsame.hwFeat
      length := List.length_replicate
      listed := fun a ha => by
        cases (List.mem_replicate.1 ha).2
      written := hafter ▸ hhigh
      low := fun x hx hp hv => by
        rw [hafter, hlow x hx, hsame.regs x hp hv]
      uc := fun _ _ => Or.inr hpr
      mc := fun _ _ => Or.inr (Or.inl hpr) }

/-- Room for the unicast addresses, but not for the others. -/
theorem exact_mcOverflow (huc : dev.netdev.uc.length ≤ dev.hwFeat.addnMac)
    (h : dev.hwFeat.addnMac - dev.netdev.uc.length < dev.netdev.mc.length) :
    dev.Exact dev.setMacAddnAddrs
      (dev.netdev.uc.map some
        ++ List.replicate (dev.hwFeat.addnMac - dev.netdev.uc.length) none) := by
  let mid : FilterDev :=
    { dev with
      regs := dev.regs.setEntries MAC_MACA1HR (dev.netdev.uc.map some) }
  have hsame := mid.sameBut_setAllMulticastMode true
  have hafter : dev.setMacAddnAddrs.regs
      = (mid.setAllMulticastMode true).regs.setEntries
        (MAC_MACA1HR + 8 * dev.netdev.uc.length)
        (List.replicate (dev.hwFeat.addnMac - dev.netdev.uc.length) none) := by
    simp only [setMacAddnAddrs, if_neg (Nat.not_lt.2 huc), setMacRegs_eq,
      if_pos h, clearMacRegs_eq]
    rfl
  obtain ⟨hhigh, hlow⟩ := setEntries_behind hsame
    (Nat.le_add_right MAC_MACA1HR (8 * dev.netdev.uc.length))
    (List.replicate (dev.hwFeat.addnMac - dev.netdev.uc.length) none)
  have ham : dev.setMacAddnAddrs.AllMulti := by
    rw [AllMulti, MacRegs.getField, hafter, hlow _ (by decide)]
    exact allMulti_setAllMulticastMode
  exact
    { hwFeat := by
        simp only [setMacAddnAddrs, if_neg (Nat.not_lt.2 huc),
          setMacRegs_eq, if_pos h]
        exact hsame.hwFeat
      length := by
        rw [List.length_append, List.length_map, List.length_replicate]
        omega
      listed := fun a ha => by
        rcases List.mem_append.1 ha with hin | hin
        · obtain ⟨b, hb, heq⟩ := List.mem_map.1 hin
          exact List.mem_append_left _ (Option.some.inj heq ▸ hb)
        · cases (List.mem_replicate.1 hin).2
      written := by
        rw [hafter, setEntries_append, List.length_map]
        exact hhigh
      low := fun x hx hp hv => by
        rw [hafter, hlow x hx, hsame.regs x hp hv]
        exact setEntries_frame (Or.inl hx)
      uc := fun a ha => Or.inl
        (List.mem_append_left _ (List.mem_map.2 ⟨a, ha, rfl⟩))
      mc := fun _ _ => Or.inr (Or.inr ham) }

/-- Room for all of them. -/
theorem exact_fits (huc : dev.netdev.uc.length ≤ dev.hwFeat.addnMac)
    (h : dev.netdev.mc.length ≤ dev.hwFeat.addnMac - dev.netdev.uc.length) :
    dev.Exact dev.setMacAddnAddrs
      (dev.netdev.uc.map some ++ dev.netdev.mc.map some
        ++ List.replicate (dev.hwFeat.addnMac - dev.netdev.uc.length
          - dev.netdev.mc.length) none) := by
  have hafter : dev.setMacAddnAddrs.regs
      = dev.regs.setEntries MAC_MACA1HR
        (dev.netdev.uc.map some ++ dev.netdev.mc.map some
          ++ List.replicate (dev.hwFeat.addnMac - dev.netdev.uc.length
            - dev.netdev.mc.length) none) := by
    rw [setEntries_append, setEntries_append, List.length_append,
      List.length_map, List.length_map, Nat.mul_add, ← Nat.add_assoc]
    simp only [setMacAddnAddrs, if_neg (Nat.not_lt.2 huc), setMacRegs_eq,
      if_neg (Nat.not_lt.2 h), clearMacRegs_eq]
  exact
    { hwFeat := by
        simp only [setMacAddnAddrs, if_neg (Nat.not_lt.2 huc),
          setMacRegs_eq, if_neg (Nat.not_lt.2 h)]
      length := by
        rw [List.length_append, List.length_append, List.length_map,
          List.length_map, List.length_replicate]
        omega
      listed := fun a ha => by
        rcases List.mem_append.1 ha with hin | hin
        · rw [← List.map_append] at hin
          obtain ⟨b, hb, heq⟩ := List.mem_map.1 hin
          exact Option.some.inj heq ▸ hb
        · cases (List.mem_replicate.1 hin).2
      written := fun x _ => by rw [hafter]
      low := fun x hx _ _ => by
        rw [hafter]
        exact setEntries_frame (Or.inl hx)
      uc := fun a ha => Or.inl (List.mem_append_left _
        (List.mem_append_left _ (List.mem_map.2 ⟨a, ha, rfl⟩)))
      mc := fun a ha => Or.inl (List.mem_append_left _
        (List.mem_append_right _ (List.mem_map.2 ⟨a, ha, rfl⟩))) }

/-- Whatever the lists, the exact mode comes to entries and modes. -/
theorem exact_setMacAddnAddrs (dev : FilterDev) :
    ∃ entries, dev.Exact dev.setMacAddnAddrs entries := by
  by_cases huc : dev.hwFeat.addnMac < dev.netdev.uc.length
  · exact ⟨_, exact_ucOverflow huc⟩
  · by_cases hmc :
        dev.hwFeat.addnMac - dev.netdev.uc.length < dev.netdev.mc.length
    · exact ⟨_, exact_mcOverflow (by omega) hmc⟩
    · exact ⟨_, exact_fits (by omega) (by omega)⟩

-- ============================================================= hash mode

variable (crc32Le : U32 → MacAddr → U32)

/-- The bit of an address in a hash table of `size` bits: the top of its
checksum. -/
def hashBit (size : Nat) (a : MacAddr) : Nat :=
  (~~~crc32Le (~~~0) a).reverse.toNat * size / 2 ^ 32

/-- The index is the top of the checksum, for every size of the table. -/
theorem hashIndex_eq (h : dev.hwFeat.hashTableSize ∈ [64, 128, 256])
    (a : MacAddr) :
    hashIndex crc32Le dev.hashTableShift a
      = hashBit crc32Le dev.hwFeat.hashTableSize a := by
  rw [hashIndex, hashBit, BitVec.toNat_ushiftRight,
    Nat.shiftRight_eq_div_pow, hashTableShift]
  generalize (~~~crc32Le (~~~0) a).reverse.toNat = n
  simp only [List.mem_cons, List.not_mem_nil, or_false] at h
  rcases h with hsize | hsize | hsize
  · rw [hsize]
    simp only [Nat.reduceShiftRight, Nat.reduceSub, Nat.reducePow]
    omega
  · rw [hsize]
    simp only [Nat.reduceShiftRight, Nat.reduceSub, Nat.reducePow]
    omega
  · rw [hsize]
    simp only [Nat.reduceShiftRight, Nat.reduceSub, Nat.reducePow]
    omega

theorem hashBit_lt {size : Nat} (h : 0 < size) (a : MacAddr) :
    hashBit crc32Le size a < size := by
  rw [hashBit, Nat.div_lt_iff_lt_mul (by decide), Nat.mul_comm size]
  exact Nat.mul_lt_mul_of_pos_right (BitVec.isLt _) h

/-- Bits that are set stay set. -/
theorem addHashes_mono {shift : Nat} {table : Nat → U32}
    {addrs : List MacAddr} {w b : Nat}
    (h : (table w).getLsbD b = true) :
    (addHashes crc32Le shift table addrs w).getLsbD b = true := by
  induction addrs generalizing table with
  | nil => exact h
  | cons ha rest ih =>
      rw [addHashes, List.foldl_cons]
      refine ih ?_
      by_cases hw : w = hashIndex crc32Le shift ha / 32
      · subst hw
        rw [Function.update_self, BitVec.getLsbD_or, h, Bool.true_or]
      · rw [Function.update_of_ne hw]
        exact h

/-- Every address of the list has its bit set. -/
theorem addHashes_get {shift : Nat} {table : Nat → U32}
    {addrs : List MacAddr} {a : MacAddr} (h : a ∈ addrs) :
    (addHashes crc32Le shift table addrs
      (hashIndex crc32Le shift a / 32)).getLsbD
        (hashIndex crc32Le shift a % 32) = true := by
  induction addrs generalizing table with
  | nil => cases h
  | cons ha rest ih =>
      rcases List.mem_cons.1 h with rfl | hrest
      · rw [addHashes, List.foldl_cons]
        refine addHashes_mono crc32Le ?_
        have hlt : hashIndex crc32Le shift a % 32 < 32 :=
          Nat.mod_lt _ (by decide)
        rw [Function.update_self, BitVec.getLsbD_or,
          BitVec.getLsbD_shiftLeft]
        simp [hlt]
      · exact ih hrest

theorem writeHashes_frame {regs : MacRegs} {table : Nat → U32}
    {left i x : Nat}
    (h : x < MAC_HTR0 + 4 * i ∨ MAC_HTR0 + 4 * (i + left) ≤ x) :
    regs.writeHashes table left i x = regs x := by
  induction left generalizing regs i with
  | zero => rfl
  | succ left ih =>
      rw [MacRegs.writeHashes, ih (by omega), MacRegs.writel]
      exact Function.update_of_ne (by unfold MAC_HTR_INC; omega) _ _

theorem writeHashes_get {regs : MacRegs} {table : Nat → U32}
    {left i j : Nat} (hlo : i ≤ j) (hhi : j < i + left) :
    regs.writeHashes table left i (MAC_HTR0 + 4 * j) = table j := by
  induction left generalizing regs i with
  | zero => omega
  | succ left ih =>
      rw [MacRegs.writeHashes]
      rcases Nat.eq_or_lt_of_le hlo with rfl | hlt
      · rw [writeHashes_frame (by omega), MacRegs.writel, MAC_HTR_INC,
          Function.update_self]
      · exact ih hlt (by omega)

-- ========================================================== the filter

/-- Entry `k` is enabled. -/
def Enabled (dev : FilterDev) (k : Nat) : Prop :=
  dev.regs.getField (MAC_MACA1HR + 8 * k) 31 1 = 1

/-- Entry `k` is enabled and holds an address, in all its bits. -/
structure EntryHolds (dev : FilterDev) (k : Nat) (a : MacAddr) : Prop where
  enabled : dev.Enabled k
  hi : dev.regs.getField (MAC_MACA1HR + 8 * k) 0 16 = a.hi
  unmasked : dev.regs.getField (MAC_MACA1HR + 8 * k) 16 15 = 0
  lo : dev.regs (MAC_MACA1HR + 8 * k + 4) = a.lo

/-- The bit of an address is set in a register of the table. -/
def HashHolds (dev : FilterDev) (a : MacAddr) : Prop :=
  let bit := hashBit crc32Le dev.hwFeat.hashTableSize a
  bit < dev.hwFeat.hashTableSize
    ∧ (dev.regs (MAC_HTR0 + 4 * (bit / 32))).getLsbD (bit % 32) = true

/-- A frame for an address passes. -/
def Accepts (dev : FilterDev) (a : MacAddr) : Prop :=
  dev.Promisc ∨ (∃ k < dev.hwFeat.addnMac, dev.EntryHolds k a)
    ∨ dev.HashHolds crc32Le a

/-- No subscribed address is lost, nothing is written beside the table,
and in exact mode every entry there is has been written: with a listed
address, or cleared. -/
structure KeepsAddresses (dev after : FilterDev) : Prop where
  unicast : ∀ a ∈ dev.netdev.uc, after.Accepts crc32Le a
  multicast : ∀ a ∈ dev.netdev.mc,
    after.Accepts crc32Le a ∨ after.AllMulti
  inTable : dev.hwFeat.hashTableSize ≠ 0 →
    ∀ a, hashIndex crc32Le dev.hashTableShift a / 32
      < dev.hwFeat.hashTableSize / 32
  outside : ∀ i < 8, dev.hwFeat.hashTableSize / 32 ≤ i →
    after.regs (MAC_HTR0 + 4 * i) = dev.regs (MAC_HTR0 + 4 * i)
  exact : dev.hwFeat.hashTableSize = 0 → ∀ k < dev.hwFeat.addnMac,
    (∃ a ∈ dev.netdev.uc ++ dev.netdev.mc, after.EntryHolds k a)
      ∨ (after.regs (MAC_MACA1HR + 8 * k) = 0
        ∧ after.regs (MAC_MACA1HR + 8 * k + 4) = 0)
  beyond : dev.hwFeat.hashTableSize = 0 → ∀ x,
    MAC_MACA1HR + 8 * dev.hwFeat.addnMac ≤ x → after.regs x = dev.regs x

theorem hi_lt (a : MacAddr) : a.hi.toNat < 2 ^ 16 := by
  rw [MacAddr.hi, BitVec.toNat_setWidth]
  exact Nat.lt_of_le_of_lt (Nat.mod_le _ _) (BitVec.isLt _)

/-- An entry that was written for an address holds it. -/
theorem entryHolds_of_written {k : Nat} {a : MacAddr}
    (hhi : dev.regs (MAC_MACA1HR + 8 * k) = entryHi (some a))
    (hlo : dev.regs (MAC_MACA1HR + 8 * k + 4) = entryLo (some a)) :
    dev.EntryHolds k a where
  enabled := by
    rw [Enabled, MacRegs.getField, hhi]
    exact (Field.get_set (by decide)).trans (by decide)
  hi := by
    rw [MacRegs.getField, hhi]
    exact (Field.get_set_of_apart (by decide) (by decide)
      (by decide)).trans (Field.get_zero_of_lt (by decide) (hi_lt a))
  unmasked := by
    rw [MacRegs.getField, hhi]
    refine (Field.get_set_of_apart (by decide) (by decide)
      (by decide)).trans (BitVec.eq_of_getLsbD_eq fun i hi => ?_)
    have hbit : a.hi.getLsbD (16 + i) = false := by
      rw [MacAddr.hi, BitVec.getLsbD_setWidth,
        BitVec.getLsbD_of_ge _ _ (by omega), Bool.and_false]
    rw [Field.getLsbD_get (by decide), hbit, Bool.and_false,
      BitVec.ofNat_eq_ofNat, BitVec.getLsbD_zero]
  lo := hlo

/-- The words of the table that are written hold the addresses' bits. -/
theorem hashHolds_setMacHashTable
    (hsize : dev.hwFeat.hashTableSize ∈ [64, 128, 256]) {a : MacAddr}
    (ha : a ∈ dev.netdev.uc ∨ a ∈ dev.netdev.mc) :
    (dev.setMacHashTable crc32Le).HashHolds crc32Le a := by
  have hpos : 0 < dev.hwFeat.hashTableSize := by
    simp only [List.mem_cons, List.not_mem_nil, or_false] at hsize
    omega
  have hlt := hashBit_lt crc32Le hpos a
  have hword : hashBit crc32Le dev.hwFeat.hashTableSize a / 32
      < 0 + dev.hwFeat.hashTableSize / 32 := by
    simp only [List.mem_cons, List.not_mem_nil, or_false] at hsize
    omega
  refine ⟨hlt, ?_⟩
  change (dev.regs.writeHashes _ (dev.hwFeat.hashTableSize / 32) 0
    (MAC_HTR0 + 4 * (hashBit crc32Le dev.hwFeat.hashTableSize a / 32))).getLsbD
      (hashBit crc32Le dev.hwFeat.hashTableSize a % 32) = true
  rw [writeHashes_get (Nat.zero_le _) hword, ← hashIndex_eq crc32Le hsize]
  rcases ha with huc | hmc
  · exact addHashes_mono crc32Le (addHashes_get crc32Le huc)
  · exact addHashes_get crc32Le hmc

/-- The hash mode keeps the addresses. -/
theorem keepsAddresses_hash
    (hsize : dev.hwFeat.hashTableSize ∈ [64, 128, 256]) :
    dev.KeepsAddresses crc32Le (dev.setMacHashTable crc32Le) := by
  have hne : dev.hwFeat.hashTableSize ≠ 0 := by
    rintro hzero
    rw [hzero] at hsize
    exact absurd hsize (by decide)
  exact
    { unicast := fun a ha => Or.inr (Or.inr
        (hashHolds_setMacHashTable crc32Le hsize (Or.inl ha)))
      multicast := fun a ha => Or.inl (Or.inr (Or.inr
        (hashHolds_setMacHashTable crc32Le hsize (Or.inr ha))))
      inTable := fun _ a => by
        have hlt := hashBit_lt crc32Le (Nat.pos_of_ne_zero hne) a
        rw [hashIndex_eq crc32Le hsize]
        simp only [List.mem_cons, List.not_mem_nil, or_false] at hsize
        omega
      outside := fun i _ hi => writeHashes_frame (Or.inr (by omega))
      exact := fun hzero => absurd hzero hne
      beyond := fun hzero => absurd hzero hne }

/-- The exact mode keeps the addresses. -/
theorem keepsAddresses_exact (hzero : dev.hwFeat.hashTableSize = 0) :
    dev.KeepsAddresses crc32Le dev.setMacAddnAddrs := by
  obtain ⟨entries, hexact⟩ := exact_setMacAddnAddrs dev
  have hentry : ∀ k (hk : k < entries.length),
      dev.setMacAddnAddrs.regs (MAC_MACA1HR + 8 * k)
          = entryHi entries[k]
        ∧ dev.setMacAddnAddrs.regs (MAC_MACA1HR + 8 * k + 4)
          = entryLo entries[k] := by
    intro k hk
    obtain ⟨hhi, hlo⟩ := @setEntries_get dev.regs MAC_MACA1HR _ _ hk
    exact ⟨(hexact.written _ (by omega)).trans hhi,
      (hexact.written _ (by omega)).trans hlo⟩
  have hholds : ∀ a, some a ∈ entries →
      ∃ k < dev.setMacAddnAddrs.hwFeat.addnMac,
        dev.setMacAddnAddrs.EntryHolds k a := by
    intro a ha
    obtain ⟨k, hk, heq⟩ := List.mem_iff_getElem.1 ha
    obtain ⟨hhi, hlo⟩ := hentry k hk
    refine ⟨k, by rw [hexact.hwFeat, ← hexact.length]; exact hk, ?_⟩
    exact entryHolds_of_written (heq ▸ hhi) (heq ▸ hlo)
  exact
    { unicast := fun a ha => (hexact.uc a ha).elim
        (fun hin => Or.inr (Or.inl (hholds a hin))) Or.inl
      multicast := fun a ha => by
        rcases hexact.mc a ha with hin | hpr | ham
        · exact Or.inl (Or.inr (Or.inl (hholds a hin)))
        · exact Or.inl (Or.inl hpr)
        · exact Or.inr ham
      inTable := fun hne => absurd hzero hne
      outside := fun i hi _ => by
        unfold MAC_HTR0
        exact hexact.low _ (by unfold MAC_MACA1HR; omega)
          (by unfold MAC_PFR; omega) (by unfold MAC_VLANTR; omega)
      exact := fun _ k hk => by
        have hk' : k < entries.length := hexact.length ▸ hk
        obtain ⟨hhi, hlo⟩ := hentry k hk'
        cases hcase : entries[k] with
        | none =>
            rw [hcase] at hhi hlo
            exact Or.inr ⟨hhi, hlo⟩
        | some a =>
            rw [hcase] at hhi hlo
            have hmem : some a ∈ entries :=
              hcase ▸ List.getElem_mem hk'
            exact Or.inl ⟨a, hexact.listed a hmem,
              entryHolds_of_written hhi hlo⟩
      beyond := fun _ x hx => by
        rw [hexact.written x (by omega)]
        exact setEntries_frame (Or.inr (by rw [hexact.length]; exact hx)) }

/-- The modes that are set first keep what the filter keeps. -/
theorem KeepsAddresses.of_sameBut {dev' after : FilterDev}
    (hsame : dev.SameBut dev') (h : dev'.KeepsAddresses crc32Le after) :
    dev.KeepsAddresses crc32Le after where
  unicast := fun a ha => h.unicast a (hsame.netdev ▸ ha)
  multicast := fun a ha => h.multicast a (hsame.netdev ▸ ha)
  inTable := by
    have hin := h.inTable
    rwa [hashTableShift, hsame.hwFeat] at hin
  outside := fun i hi hout => by
    rw [h.outside i hi (by rwa [hsame.hwFeat])]
    unfold MAC_HTR0
    exact hsame.regs _ (by unfold MAC_PFR; omega)
      (by unfold MAC_VLANTR; omega)
  exact := by
    have hexact := h.exact
    rwa [hsame.hwFeat, hsame.netdev] at hexact
  beyond := fun hzero x hx => by
    rw [h.beyond (by rwa [hsame.hwFeat]) x
      (by rwa [hsame.hwFeat])]
    exact hsame.agreeFrom x (by omega)

/-- After a change of mode the filter keeps every subscribed address,
whatever was in it before. -/
theorem address_filter_keeps (dev : FilterDev) :
    dev.KeepsAddresses crc32Le (dev.configRxMode crc32Le) := by
  let mid := dev.setPromiscuousMode dev.netdev.promisc
  have hsame : dev.SameBut (mid.setAllMulticastMode mid.netdev.allmulti) :=
    (sameBut_setPromiscuousMode _).trans (sameBut_setAllMulticastMode _)
  refine .of_sameBut crc32Le hsame ?_
  have hconfig : dev.configRxMode crc32Le
      = (mid.setAllMulticastMode mid.netdev.allmulti).addMacAddresses
        crc32Le :=
    rfl
  rw [hconfig, addMacAddresses]
  by_cases hzero :
      (mid.setAllMulticastMode
        mid.netdev.allmulti).hwFeat.hashTableSize = 0
  · rw [if_neg (not_not_intro hzero)]
    exact keepsAddresses_exact crc32Le hzero
  · rw [if_pos hzero]
    refine keepsAddresses_hash crc32Le ?_
    rw [hsame.hwFeat] at hzero ⊢
    simpa [hzero] using dev.hwFeat.supported

end FilterDev

end BxRnic.Mac
