/-
The header of a work queue entry loses nothing: what the three setters
put in it can be read back, whatever the order they run in.

What each setter leaves is known as bits side by side (`packDestqp_eq`,
`packOpcode_eq`, `packDmac_eq`). From there two setters commute because
each keeps the bits the other writes, and every order of the three comes
down to one entry, `header`.
-/
import BxRnic.Kernel.Wqe
import BxRnic.User.Wqe

namespace BxRnic

open Word

-- ============================================================== encoding

/-- One setter, with what it is given. -/
inductive HeaderStep
  | destqp (qpn : U16)
  | opcode (qpType code : U8)
  | dmac (mac : Vector U8 6)

/-- Run one setter; `high` is the side's constant. -/
def HeaderStep.apply (high : U8) (wqe : Wqe) : HeaderStep → Wqe
  | .destqp qpn => packDestqp qpn wqe
  | .opcode qpType code => packOpcode high qpType code wqe
  | .dmac mac => packDmac mac wqe

/-- Run the setters, one after the other. -/
def encode (high : U8) (steps : List HeaderStep) (wqe : Wqe) : Wqe :=
  steps.foldl (HeaderStep.apply high) wqe

theorem packDestqp_packOpcode (qpn : U16) (high qpType opcode : U8)
    (wqe : Wqe) :
    packDestqp qpn (packOpcode high qpType opcode wqe)
      = packOpcode high qpType opcode (packDestqp qpn wqe) := by
  simp only [packDestqp_eq, packOpcode_eq]

theorem packDestqp_packDmac (qpn : U16) (mac : Vector U8 6) (wqe : Wqe) :
    packDestqp qpn (packDmac mac wqe)
      = packDmac mac (packDestqp qpn wqe) := by
  simp only [packDestqp_eq, packDmac_eq]
  rw [BitVec.extractLsb'_append_eq_right]
  rw [show (BitVec.extractLsb' 0 4 mac[1] ++ mac[0]
      ++ BitVec.extractLsb' 0 4 wqe.destqp : U16).extractLsb' 4 12
      = BitVec.extractLsb' 0 4 mac[1] ++ mac[0]
    from BitVec.extractLsb'_append_eq_left]

theorem packOpcode_packDmac (high qpType opcode : U8) (mac : Vector U8 6)
    (wqe : Wqe) :
    packOpcode high qpType opcode (packDmac mac wqe)
      = packDmac mac (packOpcode high qpType opcode wqe) := by
  simp only [packOpcode_eq, packDmac_eq]
  rw [BitVec.extractLsb'_append_eq_right]
  rw [BitVec.extractLsb'_append_eq_left]

/-- The number set last is the one that stays. -/
theorem packDestqp_packDestqp (qpn old : U16) (wqe : Wqe) :
    packDestqp qpn (packDestqp old wqe) = packDestqp qpn wqe := by
  simp only [packDestqp_eq]
  rw [BitVec.extractLsb'_append_eq_right]
  rw [BitVec.extractLsb'_append_eq_left]

-- ================================================================ orders

/-- The steps that matter, in some order. Before them the number may
have been set to something else: the driver's UD entries get the
request's number first and the queue pair's own later. -/
def IsOrder (qpn : U16) (mac : Vector U8 6) (qpType opcode : U8)
    (steps : List HeaderStep) : Prop :=
  ∃ (old : List U16) (last : List HeaderStep),
    steps = old.map .destqp ++ last
      ∧ last.Perm [.destqp qpn, .opcode qpType opcode, .dmac mac]

/-- Numbers set before the last one leave no trace. -/
theorem packDestqp_encode_destqp (qpn : U16) (high : U8) (old : List U16)
    (wqe : Wqe) :
    packDestqp qpn (encode high (old.map .destqp) wqe)
      = packDestqp qpn wqe := by
  induction old generalizing wqe with
  | nil => rfl
  | cons q old ih =>
      have hrest := ih (packDestqp q wqe)
      rw [packDestqp_packDestqp] at hrest
      exact hrest

/-- The three steps commute. -/
theorem encode_perm {high qpType opcode : U8} {qpn : U16}
    {mac : Vector U8 6} {last : List HeaderStep}
    (hlast : last.Perm [.destqp qpn, .opcode qpType opcode, .dmac mac])
    (wqe : Wqe) :
    encode high last wqe
      = packDmac mac (packOpcode high qpType opcode
          (packDestqp qpn wqe)) := by
  have hcomm : ∀ x ∈ [HeaderStep.destqp qpn, .opcode qpType opcode,
        .dmac mac],
      ∀ y ∈ [HeaderStep.destqp qpn, .opcode qpType opcode, .dmac mac],
      ∀ wqe : Wqe, HeaderStep.apply high (HeaderStep.apply high wqe x) y
        = HeaderStep.apply high (HeaderStep.apply high wqe y) x := by
    intro x hx y hy wqe
    simp only [List.mem_cons, List.not_mem_nil, or_false] at hx hy
    rcases hx with rfl | rfl | rfl
    · rcases hy with rfl | rfl | rfl
      · rfl
      · exact (packDestqp_packOpcode ..).symm
      · exact (packDestqp_packDmac ..).symm
    · rcases hy with rfl | rfl | rfl
      · exact packDestqp_packOpcode ..
      · rfl
      · exact (packOpcode_packDmac ..).symm
    · rcases hy with rfl | rfl | rfl
      · exact packDestqp_packDmac ..
      · exact packOpcode_packDmac ..
      · rfl
  exact hlast.symm.foldl_eq' hcomm wqe |>.symm

/-- Every order comes down to the same entry. -/
theorem encode_eq_header {high qpType opcode : U8} {qpn : U16}
    {mac : Vector U8 6} {steps : List HeaderStep}
    (h : IsOrder qpn mac qpType opcode steps) :
    encode high steps Wqe.zero = header high qpType opcode qpn mac := by
  obtain ⟨old, last, rfl, hlast⟩ := h
  have happ : encode high (old.map .destqp ++ last) Wqe.zero
      = encode high last (encode high (old.map .destqp) Wqe.zero) :=
    List.foldl_append
  rw [happ, encode_perm hlast, packDestqp_encode_destqp]
  simp only [packDestqp_eq, packOpcode_eq, packDmac_eq]
  rw [BitVec.extractLsb'_append_eq_right]
  rw [BitVec.extractLsb'_append_eq_left]
  simp [header, Wqe.zero]

-- =============================================================== decoding

/-- The fields of an entry's header spell these values. -/
structure Carries (wqe : Wqe) (qpn : U16) (mac : Vector U8 6)
    (qpType opcode : U8) : Prop where
  qpn_low : wqe.eecntx.extractLsb' 10 6 = qpn.extractLsb' 0 6
  qpn_high : wqe.destqp.extractLsb' 0 4 = qpn.extractLsb' 6 4
  mac_bits : wqe.destsocket2.extractLsb' 0 4
      ++ (wqe.destsocket1 ++ wqe.destqp.extractLsb' 4 12) = macBits mac
  opcode : wqe.destsocket2.extractLsb' 4 4 = opcode.extractLsb' 0 4
  qpType : wqe.opcode.extractLsb' 0 4 = qpType.extractLsb' 0 4
  rest : wqe.eecntx.extractLsb' 0 10 = 0

/-- The two sides' constants leave the transport's nibble alone. -/
theorem header_carries {high : U8} (hhigh : high = 0x10 ∨ high = 0x50)
    (qpType opcode : U8) (qpn : U16) (mac : Vector U8 6) :
    Carries (header high qpType opcode qpn mac) qpn mac qpType opcode where
  qpn_low := BitVec.extractLsb'_append_eq_left
  qpn_high := BitVec.extractLsb'_append_eq_right
  mac_bits := by
    have hlow : (opcode.extractLsb' 0 4 ++ mac[5].extractLsb' 4 4).extractLsb'
        0 4 = mac[5].extractLsb' 4 4 := BitVec.extractLsb'_append_eq_right
    have hhigh : (mac[1].extractLsb' 0 4 ++ mac[0]
        ++ qpn.extractLsb' 6 4).extractLsb' 4 12
        = mac[1].extractLsb' 0 4 ++ mac[0] :=
      BitVec.extractLsb'_append_eq_left
    simp only [header]
    rw [hlow, hhigh]
    apply BitVec.eq_of_toNat_eq
    simp only [macBits, toNat_append_eq_add, BitVec.extractLsb'_toNat,
      Nat.shiftRight_eq_div_pow]
    omega
  opcode := BitVec.extractLsb'_append_eq_left
  qpType := by
    have hconst : high.extractLsb' 0 4 = 0 := by
      rcases hhigh with rfl | rfl
      · rfl
      · rfl
    simp only [header]
    rw [BitVec.extractLsb'_add (by omega), hconst]
    simp
  rest := BitVec.extractLsb'_append_eq_right

/-- A MAC address is its bits. -/
theorem macBits_inj {mac mac' : Vector U8 6}
    (h : macBits mac = macBits mac') : mac = mac' := by
  have hsum := congrArg BitVec.toNat h
  simp only [macBits, toNat_append_eq_add] at hsum
  apply Vector.ext
  intro i hi
  apply BitVec.eq_of_toNat_eq
  have hi : i = 0 ∨ i = 1 ∨ i = 2 ∨ i = 3 ∨ i = 4 ∨ i = 5 := by omega
  rcases hi with rfl | rfl | rfl | rfl | rfl | rfl
  all_goals omega

/-- A header's bits spell one number, one address, one transport and one
opcode. -/
theorem Carries.unique {wqe : Wqe} {qpn qpn' : U16}
    {mac mac' : Vector U8 6} {qpType qpType' opcode opcode' : U8}
    (h : Carries wqe qpn mac qpType opcode)
    (h' : Carries wqe qpn' mac' qpType' opcode')
    (hqpn : qpn.toNat < 1024) (hqpn' : qpn'.toNat < 1024)
    (htype : qpType.toNat < 16) (htype' : qpType'.toNat < 16)
    (hop : opcode.toNat < 16) (hop' : opcode'.toNat < 16) :
    qpn = qpn' ∧ mac = mac' ∧ qpType = qpType' ∧ opcode = opcode' := by
  have hlow := congrArg BitVec.toNat (h.qpn_low.symm.trans h'.qpn_low)
  have hhigh := congrArg BitVec.toNat (h.qpn_high.symm.trans h'.qpn_high)
  have htypes := congrArg BitVec.toNat (h.qpType.symm.trans h'.qpType)
  have hops := congrArg BitVec.toNat (h.opcode.symm.trans h'.opcode)
  simp only [BitVec.extractLsb'_toNat, Nat.shiftRight_eq_div_pow]
    at hlow hhigh htypes hops
  refine ⟨?_, macBits_inj (h.mac_bits.symm.trans h'.mac_bits), ?_, ?_⟩
  · exact BitVec.eq_of_toNat_eq (by omega)
  · exact BitVec.eq_of_toNat_eq (by omega)
  · exact BitVec.eq_of_toNat_eq (by omega)

-- ================================================================= paths

/-- A send or write request on its way into a zeroed entry, in the
driver or in the library. -/
inductive Path
  | kernelSend (qp : Kernel.Qp) (wr : Kernel.SendWr)
  | kernelWrite (qp : Kernel.Qp) (wr : Kernel.SendWr)
  | userSend (qp : User.Qp) (wr : User.SendWr)
  | userWrite (qp : User.Qp) (wr : User.SendWr)

namespace Path

/-- What the `prepare` function returns, and the entry it leaves. -/
def result : Path → Int × Wqe
  | kernelSend qp wr =>
      let r := Kernel.prepareSendWqe qp Wqe.zero wr
      (r.1, r.2.2)
  | kernelWrite qp wr =>
      let r := Kernel.prepareWriteWqe qp Wqe.zero wr
      (r.1, r.2.2)
  | userSend qp wr =>
      let r := User.prepareSendWqe qp Wqe.zero wr
      (r.1, r.2.2)
  | userWrite qp wr =>
      let r := User.prepareWriteWqe qp Wqe.zero wr
      (r.1, r.2.2)

/-- The side's constant. -/
def high : Path → U8
  | kernelSend .. => 0x10
  | kernelWrite .. => 0x10
  | userSend .. => 0x50
  | userWrite .. => 0x50

/-- The codes of the queue pair's transport and of the request. -/
def codes : Path → Option U8 × Option U8
  | kernelSend qp wr | kernelWrite qp wr =>
      (Kernel.transportCode qp.qpType, Kernel.operationCode wr.opcode)
  | userSend qp wr | userWrite qp wr =>
      (User.transportCode qp.qpType, User.operationCode wr.opcode)

/-- The number the entry is for: the queue pair's own when it has one,
and for an entry to an unconnected one the request's. -/
def qpn : Path → U32
  | kernelSend qp wr =>
      if qp.attr.destqp = 0 ∧ qp.qpType = .ud then wr.remoteQpn
      else qp.attr.destqp
  | kernelWrite qp _ => qp.attr.destqp
  | userSend qp wr =>
      if qp.qpType = .ud then wr.remoteQpn else qp.attr.destqp
  | userWrite qp _ => qp.attr.destqp

/-- The address the entry is for: the address handle's in the library's
unconnected entries. -/
def mac : Path → Vector U8 6
  | kernelSend qp _ => qp.attr.macAddr
  | kernelWrite qp _ => qp.attr.macAddr
  | userSend qp wr =>
      match wr.ah with
      | none => qp.attr.macAddr
      | some ah => if qp.qpType = .ud then ah.dmac else qp.attr.macAddr
  | userWrite qp _ => qp.attr.macAddr

end Path

/-- The fields of the header, as they stand. -/
def Wqe.headerFields (wqe : Wqe) : U16 × U16 × U32 × U8 × U8 :=
  (wqe.eecntx, wqe.destqp, wqe.destsocket1, wqe.destsocket2, wqe.opcode)

/-- An entry whose header is that of an encoding in some order. -/
def Path.Encodes (p : Path) (qpType opcode : U8) : Prop :=
  ∃ steps : List HeaderStep,
    IsOrder (p.qpn.setWidth 16) p.mac qpType opcode steps
      ∧ p.result.2.headerFields
        = (encode p.high steps Wqe.zero).headerFields

theorem Kernel.buildWqeOpcode_ok {qp : Qp} {wqe : Wqe} {wr : SendWr}
    {qpType opcode : U8} (htype : transportCode qp.qpType = some qpType)
    (hop : operationCode wr.opcode = some opcode)
    (h : (buildWqeOpcode qp wqe wr).1 = 0) :
    buildWqeOpcode qp wqe wr = (0, setWqeOpcode qpType opcode wqe) := by
  unfold buildWqeOpcode at h ⊢
  rw [htype, hop] at h ⊢
  by_cases hrefused : codesRefused qpType opcode = true
  · simp [hrefused, EINVAL] at h
  · simp [hrefused]

theorem User.buildWqeOpcode_ok {qp : Qp} {wqe : Wqe} {wr : SendWr}
    {qpType opcode : U8} (htype : transportCode qp.qpType = some qpType)
    (hop : operationCode wr.opcode = some opcode)
    (h : (buildWqeOpcode qp wqe wr).1 = 0) :
    buildWqeOpcode qp wqe wr = (0, setWqeOpcode qpType opcode wqe) := by
  unfold buildWqeOpcode at h ⊢
  rw [htype, hop] at h ⊢
  by_cases hrefused : codesRefused qpType opcode = true
  · simp [hrefused, EINVAL] at h
  · simp [hrefused]

/-- Number, opcode, address: the unconnected entries. -/
theorem isOrder_number_first (qpn : U16) (mac : Vector U8 6)
    (qpType opcode : U8) :
    IsOrder qpn mac qpType opcode
      [.destqp qpn, .opcode qpType opcode, .dmac mac] :=
  ⟨[], _, rfl, List.Perm.refl _⟩

/-- Opcode, number, address: all the others. -/
theorem isOrder_opcode_first (qpn : U16) (mac : Vector U8 6)
    (qpType opcode : U8) :
    IsOrder qpn mac qpType opcode
      [.opcode qpType opcode, .destqp qpn, .dmac mac] :=
  ⟨[], _, rfl, List.Perm.swap _ _ _⟩

/-- The request's number, opcode, the queue pair's number, address. -/
theorem isOrder_number_twice (old qpn : U16) (mac : Vector U8 6)
    (qpType opcode : U8) :
    IsOrder qpn mac qpType opcode
      [.destqp old, .opcode qpType opcode, .destqp qpn, .dmac mac] :=
  ⟨[old], _, rfl, List.Perm.swap _ _ _⟩

theorem kernelSend_encodes {qp : Kernel.Qp} {wr : Kernel.SendWr}
    {qpType opcode : U8}
    (hok : (Path.kernelSend qp wr).result.1 = 0)
    (hcodes : (Path.kernelSend qp wr).codes = (some qpType, some opcode)) :
    (Path.kernelSend qp wr).Encodes qpType opcode := by
  have htype : Kernel.transportCode qp.qpType = some qpType :=
    congrArg Prod.fst hcodes
  have hop : Kernel.operationCode wr.opcode = some opcode :=
    congrArg Prod.snd hcodes
  have hgsi : qp.qpType ≠ .gsi := by
    intro h
    rw [h] at htype
    cases htype
  unfold Path.Encodes
  simp only [Path.result, Path.qpn, Path.mac, Path.high] at hok ⊢
  unfold Kernel.prepareSendWqe at hok ⊢
  simp only [hgsi, or_false, if_false] at hok ⊢
  generalize hstart : (if qp.qpType = .ud then _ else _ : Wqe) = start
    at hok ⊢
  by_cases hstatus : (Kernel.buildWqeOpcode qp start wr).1 = 0
  · rw [Kernel.buildWqeOpcode_ok htype hop hstatus]
    by_cases hud : qp.qpType = .ud
    · rw [if_pos hud] at hstart
      subst hstart
      by_cases hown : qp.attr.destqp = 0
      · simp only [hown, hud, and_self, if_true, ne_eq,
          not_true_eq_false, if_false]
        exact ⟨_, isOrder_number_first _ _ _ _, rfl⟩
      · simp only [hown, ne_eq, not_true_eq_false, not_false_eq_true,
          if_false, if_true, false_and]
        exact ⟨_, isOrder_number_twice _ _ _ _ _, rfl⟩
    · rw [if_neg hud] at hstart
      subst hstart
      by_cases hown : qp.attr.destqp = 0
      · simp only [hown, hud, and_false, ne_eq, not_true_eq_false,
          if_false]
        exact ⟨_, isOrder_number_first _ _ _ _, rfl⟩
      · simp only [hown, ne_eq, not_true_eq_false, not_false_eq_true,
          if_false, if_true, false_and]
        exact ⟨_, isOrder_opcode_first _ _ _ _, rfl⟩
  · simp [hstatus] at hok

theorem kernelWrite_encodes {qp : Kernel.Qp} {wr : Kernel.SendWr}
    {qpType opcode : U8}
    (hok : (Path.kernelWrite qp wr).result.1 = 0)
    (hcodes : (Path.kernelWrite qp wr).codes = (some qpType, some opcode)) :
    (Path.kernelWrite qp wr).Encodes qpType opcode := by
  have htype : Kernel.transportCode qp.qpType = some qpType :=
    congrArg Prod.fst hcodes
  have hop : Kernel.operationCode wr.opcode = some opcode :=
    congrArg Prod.snd hcodes
  unfold Path.Encodes
  simp only [Path.result, Path.qpn, Path.mac, Path.high] at hok ⊢
  unfold Kernel.prepareWriteWqe at hok ⊢
  by_cases hstatus : (Kernel.buildWqeOpcode qp Wqe.zero wr).1 = 0
  · rw [Kernel.buildWqeOpcode_ok htype hop hstatus]
    by_cases hown : qp.attr.destqp = 0
    · -- number 0 is in a zeroed entry from the start
      simp only [hown, ne_eq, not_true_eq_false, if_false]
      exact ⟨_, isOrder_number_first _ _ _ _, rfl⟩
    · simp only [hown, ne_eq, not_true_eq_false, not_false_eq_true,
        if_false, if_true]
      exact ⟨_, isOrder_opcode_first _ _ _ _, rfl⟩
  · simp [hstatus, EINVAL] at hok

theorem userSend_encodes {qp : User.Qp} {wr : User.SendWr}
    {qpType opcode : U8}
    (hok : (Path.userSend qp wr).result.1 = 0)
    (hcodes : (Path.userSend qp wr).codes = (some qpType, some opcode)) :
    (Path.userSend qp wr).Encodes qpType opcode := by
  have htype : User.transportCode qp.qpType = some qpType :=
    congrArg Prod.fst hcodes
  have hop : User.operationCode wr.opcode = some opcode :=
    congrArg Prod.snd hcodes
  unfold Path.Encodes
  simp only [Path.result, Path.qpn, Path.mac, Path.high] at hok ⊢
  unfold User.prepareSendWqe at hok ⊢
  by_cases hud : qp.qpType = .ud
  · simp only [hud, if_true] at hok ⊢
    by_cases hstatus : (User.buildWqeOpcode qp Wqe.zero wr).1 = 0
    · rw [User.buildWqeOpcode_ok htype hop hstatus] at hok ⊢
      cases hah : wr.ah with
      | none => simp [hah, EINVAL] at hok
      | some ah =>
          simp only [ne_eq, not_true_eq_false, if_false]
          refine ⟨_, isOrder_opcode_first _ _ _ _, ?_⟩
          split
          · rfl
          · rfl
    · simp [hstatus] at hok
  · simp only [hud, if_false] at hok ⊢
    have hmac : (match wr.ah with
        | none => qp.attr.macAddr
        | some _ => qp.attr.macAddr) = qp.attr.macAddr := by
      cases wr.ah with
      | none => rfl
      | some _ => rfl
    rw [hmac]
    generalize hstart : ({ Wqe.zero with qkey := qp.attr.qkey } : Wqe)
      = start at hok ⊢
    by_cases hstatus : (User.buildWqeOpcode qp start wr).1 = 0
    · rw [User.buildWqeOpcode_ok htype hop hstatus]
      subst hstart
      by_cases hown : qp.attr.destqp = 0
      · simp only [hown, ne_eq, not_true_eq_false, if_false]
        refine ⟨_, isOrder_number_first _ _ _ _, ?_⟩
        split
        · rfl
        · rfl
      · simp only [hown, ne_eq, not_true_eq_false, not_false_eq_true,
          if_false, if_true]
        refine ⟨_, isOrder_opcode_first _ _ _ _, ?_⟩
        split
        · rfl
        · rfl
    · simp [hstatus] at hok

theorem userWrite_encodes {qp : User.Qp} {wr : User.SendWr}
    {qpType opcode : U8}
    (hok : (Path.userWrite qp wr).result.1 = 0)
    (hcodes : (Path.userWrite qp wr).codes = (some qpType, some opcode)) :
    (Path.userWrite qp wr).Encodes qpType opcode := by
  have htype : User.transportCode qp.qpType = some qpType :=
    congrArg Prod.fst hcodes
  have hop : User.operationCode wr.opcode = some opcode :=
    congrArg Prod.snd hcodes
  unfold Path.Encodes
  simp only [Path.result, Path.qpn, Path.mac, Path.high] at hok ⊢
  unfold User.prepareWriteWqe at hok ⊢
  by_cases hstatus : (User.buildWqeOpcode qp Wqe.zero wr).1 = 0
  · rw [User.buildWqeOpcode_ok htype hop hstatus]
    by_cases hown : qp.attr.destqp = 0
    · simp only [hown, ne_eq, not_true_eq_false, if_false]
      exact ⟨_, isOrder_number_first _ _ _ _, rfl⟩
    · simp only [hown, ne_eq, not_true_eq_false, not_false_eq_true,
        if_false, if_true]
      exact ⟨_, isOrder_opcode_first _ _ _ _, rfl⟩
  · simp [hstatus, EINVAL] at hok

/-- The entry of a request that was not refused is encoded in one of
the orders. -/
theorem Path.encodes {p : Path} {qpType opcode : U8}
    (hok : p.result.1 = 0) (hcodes : p.codes = (some qpType, some opcode)) :
    p.Encodes qpType opcode := by
  cases p with
  | kernelSend => exact kernelSend_encodes hok hcodes
  | kernelWrite => exact kernelWrite_encodes hok hcodes
  | userSend => exact userSend_encodes hok hcodes
  | userWrite => exact userWrite_encodes hok hcodes

theorem Path.high_eq (p : Path) : p.high = 0x10 ∨ p.high = 0x50 := by
  cases p with
  | kernelSend => exact Or.inl rfl
  | kernelWrite => exact Or.inl rfl
  | userSend => exact Or.inr rfl
  | userWrite => exact Or.inr rfl

/-- What an entry carries is in its header. -/
theorem Carries.of_headerFields {wqe wqe' : Wqe} {qpn : U16}
    {mac : Vector U8 6} {qpType opcode : U8}
    (h : Carries wqe qpn mac qpType opcode)
    (heq : wqe'.headerFields = wqe.headerFields) :
    Carries wqe' qpn mac qpType opcode := by
  simp only [Wqe.headerFields, Prod.mk.injEq] at heq
  obtain ⟨heecntx, hdestqp, hsocket1, hsocket2, hopcode⟩ := heq
  constructor
  · rw [heecntx]
    exact h.qpn_low
  · rw [hdestqp]
    exact h.qpn_high
  · rw [hsocket2, hsocket1, hdestqp]
    exact h.mac_bits
  · rw [hsocket2]
    exact h.opcode
  · rw [hopcode]
    exact h.qpType
  · rw [heecntx]
    exact h.rest

/-- The header of a zeroed entry spells what the setters were given,
whatever their order: the order does not show, the four values can be
read back in one way only, and every entry the two sides make for a
request they do not refuse is such an encoding. -/
theorem header_lossless {high qpType opcode : U8} {qpn : U16}
    {mac : Vector U8 6} (hhigh : high = 0x10 ∨ high = 0x50)
    (hqpn : qpn.toNat < 1024) (htype : qpType.toNat < 16)
    (hop : opcode.toNat < 16) :
    (∀ steps : List HeaderStep, IsOrder qpn mac qpType opcode steps →
      Carries (encode high steps Wqe.zero) qpn mac qpType opcode
      ∧ ∀ steps' : List HeaderStep, IsOrder qpn mac qpType opcode steps' →
        encode high steps' Wqe.zero = encode high steps Wqe.zero)
    ∧ (∀ (wqe : Wqe) (qpn' : U16) (mac' : Vector U8 6)
        (qpType' opcode' : U8), qpn'.toNat < 1024 → qpType'.toNat < 16 →
        opcode'.toNat < 16 → Carries wqe qpn mac qpType opcode →
        Carries wqe qpn' mac' qpType' opcode' →
        qpn' = qpn ∧ mac' = mac ∧ qpType' = qpType ∧ opcode' = opcode)
    ∧ ∀ p : Path, p.result.1 = 0 →
        p.codes = (some qpType, some opcode) →
        p.qpn.setWidth 16 = qpn → p.mac = mac →
        Carries p.result.2 qpn mac qpType opcode := by
  refine ⟨fun steps hsteps => ⟨?_, fun steps' hsteps' => ?_⟩, ?_, ?_⟩
  · rw [encode_eq_header hsteps]
    exact header_carries hhigh qpType opcode qpn mac
  · rw [encode_eq_header hsteps, encode_eq_header hsteps']
  · intro wqe qpn' mac' qpType' opcode' hqpn' htype' hop' h h'
    exact h'.unique h hqpn' hqpn htype' htype hop' hop
  · rintro p hok hcodes rfl rfl
    obtain ⟨steps, hsteps, hfields⟩ := p.encodes hok hcodes
    rw [encode_eq_header hsteps] at hfields
    exact (header_carries p.high_eq qpType opcode _ p.mac).of_headerFields
      hfields

/-- An unconnected send of the library, field by field. -/
theorem header_lossless_send :
    (encode 0x50 [.opcode codeUD codeSend, .destqp 0x2ab,
        .dmac #v[0x02, 0x1b, 0x21, 0xa0, 0x3c, 0xf7]]
        Wqe.zero).headerFields
      = (0xac00, 0xb02a, 0x73ca0211, 0x4f, 0x56)
    ∧ Carries (encode 0x50 [.opcode codeUD codeSend, .destqp 0x2ab,
        .dmac #v[0x02, 0x1b, 0x21, 0xa0, 0x3c, 0xf7]] Wqe.zero)
      0x2ab #v[0x02, 0x1b, 0x21, 0xa0, 0x3c, 0xf7] codeUD codeSend := by
  refine ⟨by decide, ?_⟩
  exact ((header_lossless (Or.inr rfl) (by decide) (by decide)
    (by decide)).1 _ (isOrder_opcode_first ..)).1

end BxRnic
