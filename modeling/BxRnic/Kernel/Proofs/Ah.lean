/-
What `bxroce_query_ah` reads back of an address handle.

An entry belongs to its handle until the handle is destroyed
(`createAh_va`): the allocator takes entries whose `valid` is zero, and
a live one has its bit set. So a query, at any later time, reads the
bytes `set_av_attr` wrote, and over IPv4 also bytes it did not write.

The flow label is read with the version and the class still above it,
and the class with the version in it, so both come back only if the
label carried those bits in the first place (`reads_grh_iff`). Over IPv4
the query takes the header for a `bxroce_grh` (`reads_ip_iff`).
-/
import BxRnic.Kernel.Ah

namespace BxRnic.Kernel

-- ========================================================== the valid word

@[simp] theorem avGetValid_avSetValid (av : Mem) (valid : U32) :
    avGetValid (avSetValid av valid) = valid :=
  Mem.loadLe32_store av avValidOffset valid

/-- A block in front of `valid` leaves it. -/
theorem avGetValid_store {av : Mem} {off : Nat} {bs : List U8}
    (h : off + bs.length ≤ avValidOffset) :
    avGetValid (av.store off bs) = avGetValid av := by
  unfold avGetValid Mem.loadLe32
  rw [Mem.get_store_apart (by omega), Mem.get_store_apart (by omega),
    Mem.get_store_apart (by omega), Mem.get_store_apart (by omega)]

/-- `valid` is behind everything else. -/
theorem avSetValid_get {av : Mem} {valid : U32} {k : Nat}
    (h : k < avValidOffset) : avSetValid av valid k = av k :=
  Mem.get_store_apart (Or.inl h)

-- ============================================================= the headers

@[simp] theorem length_grhHdr (grh : IbGlobalRoute) (sgid : Vector U8 16)
    (pdid : U32) (nxthdr : U8) :
    (grhHdr grh sgid pdid nxthdr).length = 44 := by
  simp [grhHdr, be32]

@[simp] theorem length_ipHdr (core : NetCore) (grh : IbGlobalRoute)
    (sgid : Vector U8 16) (pdid : U32) (nxthdr : U8) (check : U16) :
    (ipHdr core grh sgid pdid nxthdr check).length = 20 := by
  simp [ipHdr, be16]

/-- With a tag the header is `sizeof(struct bxroce_eth_vlan)` long. -/
theorem length_ethHdr {dmac smac : Vector U8 6} {protoNum vlanTag : U16}
    (htag : vlanTag ≠ 0) :
    (ethHdr dmac smac protoNum vlanTag).length = sizeofEthVlan := by
  unfold ethHdr
  rw [if_pos htag]
  simp [be16, sizeofEthVlan]

theorem length_netHdr_le (env : AvEnv) (attr : AhAttr)
    (hdrType : NetworkType) (nxthdr : U8) :
    sizeofEthVlan + (netHdr env attr hdrType nxthdr).length
      ≤ avValidOffset := by
  unfold netHdr
  split <;> simp [sizeofEthVlan, avValidOffset]

-- =============================================================== creating

/-- An entry as `set_av_attr` leaves it: both headers, and both bits of
`valid`. -/
structure Packed (env : AvEnv) (attr : AhAttr) (hdrType : NetworkType)
    (old av : Mem) : Prop where
  valid : avGetValid av = avValid ||| avVlanValid
  header : ∀ k < (netHdr env attr hdrType (nextHeader hdrType)).length,
    av (sizeofEthVlan + k)
      = (netHdr env attr hdrType (nextHeader hdrType)).getD k 0
  rest : ∀ k < avValidOffset, sizeofEthVlan
      + (netHdr env attr hdrType (nextHeader hdrType)).length ≤ k →
    av k = old k

/-- What a successful `set_av_attr` does. -/
theorem setAvAttr_ok {env : AvEnv} {attr : AhAttr} {vlanTag : U16}
    {ah ah' : Ah} {av av' : Mem}
    (h : setAvAttr env attr vlanTag ah av = (0, ah', av'))
    (hvalid : avGetValid av = avValid) :
    ah'.av = ah.av ∧ Packed env attr ah.hdrType av av' := by
  have hnz : -EINVAL ≠ 0 := by decide
  unfold setAvAttr at h
  by_cases hproto : hdrTypeToProtoNum ah.hdrType = 0
  · rw [if_pos hproto] at h
    exact absurd (congrArg Prod.fst h) hnz
  rw [if_neg hproto] at h
  dsimp only at h
  by_cases htag : vlanTag = 0 ∨ vlanTag > 0xfff
  · rw [if_pos htag] at h
    exact absurd (congrArg Prod.fst h) hnz
  have htag0 : vlanTag ≠ 0 := fun h0 => htag (Or.inl h0)
  have heth : (ethHdr (resolveDmac env.core attr) env.smac
      (hdrTypeToProtoNum ah.hdrType) vlanTag).length = sizeofEthVlan :=
    length_ethHdr htag0
  have hfits := length_netHdr_le env attr ah.hdrType
    (nextHeader ah.hdrType)
  rw [if_neg htag, if_pos htag0, if_pos htag0] at h
  obtain ⟨-, h⟩ := Prod.mk.inj h
  obtain ⟨rfl, rfl⟩ := Prod.mk.inj h
  refine ⟨rfl, ?_, ?_, ?_⟩
  · rw [avGetValid_avSetValid, avGetValid_store hfits,
      avGetValid_store (by rw [heth]; decide), hvalid]
  · intro k hk
    rw [avSetValid_get (by omega), Mem.get_store hk]
  · intro k hk hrest
    rw [avSetValid_get hk, Mem.get_store_apart (Or.inr hrest),
      Mem.get_store_apart (by rw [heth]; omega)]

/-- What `bxroce_create_ah` does when it succeeds. -/
theorem createAh_ok {tbl tbl' : AvTbl} {c : CreateAh} {ah : Ah}
    (h : createAh tbl c = (.ok ah, tbl')) :
    ∃ av : Mem, tbl' = tbl.set ah.av av
      ∧ Packed c.env c.attr c.attr.sgidAttr.networkType (tbl.va ah.av)
        av := by
  unfold createAh at h
  by_cases hflag : c.attr.roce = true ∧ (!c.attr.grhFlag) = true
  · rw [if_pos hflag] at h
    cases h
  rw [if_neg hflag] at h
  by_cases hmem : (!c.memory) = true
  · rw [if_pos hmem] at h
    cases h
  rw [if_neg hmem] at h
  cases hfree : tbl.free with
  | none =>
      rw [hfree] at h
      cases h
  | some i =>
      rw [hfree] at h
      dsimp only at h
      rcases hset : setAvAttr c.env c.attr
        (c.attr.sgidAttr.vlanId.getD 0xffff)
        ⟨i, 0, c.attr.sgidAttr.networkType⟩
        (avSetValid (tbl.va i) avValid) with ⟨status, ah', av⟩
      rw [hset] at h
      dsimp only at h
      by_cases hstatus : status = 0
      · rw [if_neg (not_not.2 hstatus)] at h
        subst hstatus
        cases hudata : c.udata with
        | true =>
            rw [hudata] at h
            cases h
        | false =>
            rw [hudata] at h
            obtain ⟨hav, hpacked⟩ :=
              setAvAttr_ok hset (avGetValid_avSetValid _ _)
            cases h
            dsimp only at hav
            subst hav
            refine ⟨av, rfl, hpacked.valid, hpacked.header, ?_⟩
            intro k hk hrest
            rw [hpacked.rest k hk hrest, avSetValid_get hk]
      · rw [if_pos hstatus] at h
        cases h

-- ============================================================== the owner

/-- A call that allocates leaves every live entry. -/
theorem createAh_va {tbl : AvTbl} {c : CreateAh} {i : Nat}
    (hlive : avGetValid (tbl.va i) ≠ 0) :
    (createAh tbl c).2.va i = tbl.va i := by
  unfold createAh
  split
  · rfl
  split
  · rfl
  cases hfree : tbl.free with
  | none => rfl
  | some j =>
      -- the entry that is taken is not valid
      have hj : avGetValid (tbl.va j) = 0 := by
        simpa using List.find?_some hfree
      have hne : i ≠ j := by
        rintro rfl
        exact hlive hj
      have hother : ∀ av : Mem, (tbl.set j av).va i = tbl.va i :=
        fun av => tbl.set_va_other av hne
      dsimp only
      split
      · exact hother _
      split
      · exact hother _
      · exact hother _

/-- The calls that change the table. -/
inductive AhCall
  | create (c : CreateAh)
  | destroy (ah : Ah)

/-- The table after a call. -/
def AvTbl.step (tbl : AvTbl) : AhCall → AvTbl
  | .create c => (createAh tbl c).2
  | .destroy ah => destroyAh tbl ah

/-- A live entry stays as it is until its handle is destroyed. -/
theorem va_kept {tbl : AvTbl} {i : Nat} (calls : List AhCall)
    (hlive : avGetValid (tbl.va i) ≠ 0)
    (hnot : ∀ ah, AhCall.destroy ah ∈ calls → ah.av ≠ i) :
    (calls.foldl AvTbl.step tbl).va i = tbl.va i := by
  induction calls generalizing tbl with
  | nil => rfl
  | cons call calls ih =>
      have hstep : (tbl.step call).va i = tbl.va i := by
        cases call with
        | create c => exact createAh_va hlive
        | destroy ah =>
            have hne : ah.av ≠ i := hnot ah (by simp)
            exact tbl.set_va_other _ hne.symm
      rw [List.foldl_cons, ih (by rw [hstep]; exact hlive)
        (fun ah hah => hnot ah (List.mem_cons_of_mem _ hah)), hstep]

-- ================================================================ querying

/-- A query reads behind the longer Ethernet header. -/
theorem queryAh_grh {tbl : AvTbl} {ah : Ah}
    (hvalid : avGetValid (tbl.va ah.av) = avValid ||| avVlanValid) :
    (queryAh tbl ah).grh
      = { dgid := loadGid (tbl.va ah.av) 42
          flowLabel := (tbl.va ah.av).loadBe32 18
          sgidIndex := ah.sgidIndex.setWidth 8
          hopLimit := (((tbl.va ah.av).loadBe32 22) &&& 0xff).setWidth 8
          trafficClass :=
            ((tbl.va ah.av).loadBe32 18 >>> 24).setWidth 8 } := by
  have hset : (avValid ||| avVlanValid) &&& avValid ≠ 0 := by decide
  have hsz : (if (avGetValid (tbl.va ah.av) &&& avValid) ≠ 0 then
      sizeofEthVlan else sizeofEthBasic) = 18 := by
    rw [hvalid, if_pos hset]
    rfl
  have hmask : ∀ x : U32, x &&& 0xffffffff = x :=
    fun x => BitVec.and_allOnes
  unfold queryAh
  dsimp only
  rw [hsz, hmask]

/-- Four of the attributes that were given come back. -/
structure SameRoute (given got : IbGlobalRoute) : Prop where
  trafficClass : got.trafficClass = given.trafficClass
  flowLabel : got.flowLabel = given.flowLabel
  hopLimit : got.hopLimit = given.hopLimit
  dgid : got.dgid = given.dgid

-- ============================================================== the words

/-- The class as the query decodes it: the top byte. -/
def readClass (word : U32) : U8 := (word >>> 24).setWidth 8

theorem getLsbD_readClass (word : U32) {i : Nat} (hi : i < 8) :
    (readClass word).getLsbD i = word.getLsbD (24 + i) := by
  unfold readClass
  simp [hi]

/-- The top byte of the packed word: version, class and whatever the
label has there. -/
theorem readClass_tclassFlow (grh : IbGlobalRoute) :
    readClass (tclassFlow grh)
      = 0x60 ||| grh.trafficClass ||| readClass grh.flowLabel := by
  apply BitVec.eq_of_getLsbD_eq
  intro i hi
  have hconst : ((6 : U32) <<< 28).getLsbD (24 + i)
      = (0x60 : U8).getLsbD i := by
    revert i
    decide
  have hlt : 24 + i < 32 := by omega
  have hge : ¬ 24 + i < 24 := by omega
  unfold readClass tclassFlow
  rw [BitVec.getLsbD_or, BitVec.getLsbD_or, ← hconst]
  simp [hi, hlt, hge]

/-- The other bytes are the label's. -/
theorem low_tclassFlow (grh : IbGlobalRoute) {i : Nat} (hi : i < 24) :
    (tclassFlow grh).getLsbD i = grh.flowLabel.getLsbD i := by
  have hconst : ((6 : U32) <<< 28).getLsbD i = false := by
    revert i
    decide
  unfold tclassFlow
  rw [BitVec.getLsbD_or, BitVec.getLsbD_or, hconst]
  simp [hi]

/-- Bits that are there already. -/
private theorem or_eq_iff (x y : U8) : x ||| y = y ↔ y &&& x = x := by
  constructor
  · intro h
    apply BitVec.eq_of_getLsbD_eq
    intro i _
    have hbit := congrArg (fun z : U8 => z.getLsbD i) h
    simp only [BitVec.getLsbD_or] at hbit
    simp only [BitVec.getLsbD_and]
    grind
  · intro h
    apply BitVec.eq_of_getLsbD_eq
    intro i _
    have hbit := congrArg (fun z : U8 => z.getLsbD i) h
    simp only [BitVec.getLsbD_and] at hbit
    simp only [BitVec.getLsbD_or]
    grind

/-- Class and label survive only where the label's top byte repeats the
class and the version's bits are among the class's. -/
theorem reads_grh_iff (grh : IbGlobalRoute) :
    readClass (tclassFlow grh) = grh.trafficClass
        ∧ tclassFlow grh = grh.flowLabel
      ↔ readClass grh.flowLabel = grh.trafficClass
        ∧ grh.trafficClass &&& 0x60 = 0x60 := by
  constructor
  · rintro ⟨hclass, hlabel⟩
    have htop : readClass grh.flowLabel = grh.trafficClass := by
      rw [← hlabel]
      exact hclass
    refine ⟨htop, (or_eq_iff _ _).1 ?_⟩
    rw [readClass_tclassFlow, htop, BitVec.or_assoc,
      BitVec.or_self] at hclass
    exact hclass
  · rintro ⟨htop, hversion⟩
    have hclass : readClass (tclassFlow grh) = grh.trafficClass := by
      rw [readClass_tclassFlow, htop, BitVec.or_assoc, BitVec.or_self]
      exact (or_eq_iff _ _).2 hversion
    refine ⟨hclass, BitVec.eq_of_getLsbD_eq fun i hi => ?_⟩
    by_cases hlow : i < 24
    · exact low_tclassFlow grh hlow
    · -- the top byte of both words is the class
      obtain ⟨k, rfl⟩ := Nat.exists_eq_add_of_le (Nat.le_of_not_lt hlow)
      have hk : k < 8 := by omega
      rw [← getLsbD_readClass _ hk, ← getLsbD_readClass _ hk, hclass,
        htop]

/-- The bottom byte, masked out of a word. -/
private theorem low_byte (a b c d : U8) :
    ((a ++ b ++ c ++ d : U32) &&& 0xff).setWidth 8 = d := by
  apply BitVec.eq_of_getLsbD_eq
  intro i hi
  have hmask : (0xff : U32).getLsbD i = true := by
    revert i
    decide
  rw [BitVec.getLsbD_setWidth, BitVec.getLsbD_and, hmask,
    BitVec.getLsbD_append]
  simp [hi]

/-- The first word of an IPv4 header, as the query takes it. -/
def ipWord (trafficClass : U8) : U32 :=
  (0x45 : U8) ++ trafficClass ++ (0 : U8) ++ (0 : U8)

theorem readClass_ipWord (trafficClass : U8) :
    readClass (ipWord trafficClass) = 0x45 := by
  apply BitVec.eq_of_getLsbD_eq
  intro i hi
  rw [getLsbD_readClass _ hi, ipWord, BitVec.getLsbD_append,
    BitVec.getLsbD_append, BitVec.getLsbD_append]
  simp [show ¬ 24 + i < 8 by omega, show ¬ 24 + i - 8 < 8 by omega,
    show ¬ 24 + i - 8 - 8 < 8 by omega]
  congr 1
  omega

-- ============================================================ the fields

/-- The hop limit is the bottom byte. -/
theorem pdidHoplimit_low (grh : IbGlobalRoute) (pdid : U32)
    (nxthdr : U8) :
    (pdidHoplimit grh pdid nxthdr).extractLsb' 0 8 = grh.hopLimit := by
  apply BitVec.eq_of_getLsbD_eq
  intro i hi
  have h16 : i < 16 := by omega
  have h32 : i < 32 := by omega
  unfold pdidHoplimit
  simp [hi, h16, h32]

/-- The destination gid is the last sixteen bytes before the padding. -/
theorem grhHdr_dgid (grh : IbGlobalRoute) (sgid : Vector U8 16)
    (pdid : U32) (nxthdr : U8) {i : Nat} (hi : i < 16) :
    (grhHdr grh sgid pdid nxthdr).getD (24 + i) 0 = grh.dgid[i] := by
  have hlen : (be32 (tclassFlow grh)
      ++ be32 (pdidHoplimit grh pdid nxthdr) ++ sgid.toList).length
      = 24 := by
    simp [be32]
  unfold grhHdr
  rw [List.getD_eq_getElem _ _ (by simp [be32]; omega),
    List.getElem_append_left (by simp [be32]; omega),
    List.getElem_append_right (by omega)]
  simp only [hlen, Nat.add_sub_cancel_left, Vector.getElem_toList]

/-- Version, header length, class and the length of zero. -/
theorem ipHdr_word (core : NetCore) (grh : IbGlobalRoute)
    (sgid : Vector U8 16) (pdid : U32) (nxthdr : U8) (check : U16) :
    Mem.wordAt (ipHdr core grh sgid pdid nxthdr check) 0
      = ipWord grh.trafficClass := by
  have hhigh : ((4 : U16) <<< 12 ||| (5 : U16) <<< 8
      ||| grh.trafficClass.setWidth 16).extractLsb' 8 8 = 0x45 := by
    apply BitVec.eq_of_getLsbD_eq
    intro i hi
    have hconst : ((4 : U16) <<< 12 ||| (5 : U16) <<< 8).getLsbD (8 + i)
        = (0x45 : U8).getLsbD i := by
      revert i
      decide
    rw [BitVec.getLsbD_extractLsb', BitVec.getLsbD_or, hconst]
    simp [hi]
  have hlow : ((4 : U16) <<< 12 ||| (5 : U16) <<< 8
      ||| grh.trafficClass.setWidth 16).extractLsb' 0 8
        = grh.trafficClass := by
    apply BitVec.eq_of_getLsbD_eq
    intro i hi
    have hconst : ((4 : U16) <<< 12 ||| (5 : U16) <<< 8).getLsbD i
        = false := by
      revert i
      decide
    have h16 : i < 16 := by omega
    rw [BitVec.getLsbD_extractLsb', Nat.zero_add, BitVec.getLsbD_or,
      hconst]
    simp [hi, h16]
  calc Mem.wordAt (ipHdr core grh sgid pdid nxthdr check) 0
      = (((4 : U16) <<< 12 ||| (5 : U16) <<< 8
            ||| grh.trafficClass.setWidth 16).extractLsb' 8 8 : U8)
          ++ (((4 : U16) <<< 12 ||| (5 : U16) <<< 8
            ||| grh.trafficClass.setWidth 16).extractLsb' 0 8 : U8)
          ++ (0 : U8) ++ (0 : U8) := rfl
    _ = ipWord grh.trafficClass := by rw [hhigh, hlow, ipWord]

-- ========================================================= what is read

section Packed

variable {env : AvEnv} {attr : AhAttr} {hdrType : NetworkType}
  {old av : Mem}

/-- A word of the header. -/
theorem Packed.word (h : Packed env attr hdrType old av) {k : Nat}
    (hk : k + 4 ≤ (netHdr env attr hdrType (nextHeader hdrType)).length) :
    av.loadBe32 (sizeofEthVlan + k)
      = Mem.wordAt (netHdr env attr hdrType (nextHeader hdrType)) k := by
  apply Mem.loadBe32_eq
  intro j hj
  rw [Nat.add_assoc]
  exact h.header (k + j) (by omega)

/-- Both gid types over IPv6: what was packed is at the places where the
query looks. -/
theorem Packed.grh (h : Packed env attr hdrType old av)
    (hip : hdrType ≠ .ipv4) :
    av.loadBe32 18 = tclassFlow attr.grh
      ∧ ((av.loadBe32 22) &&& 0xff).setWidth 8 = attr.grh.hopLimit
      ∧ loadGid av 42 = attr.grh.dgid := by
  have hhdr : netHdr env attr hdrType (nextHeader hdrType)
      = grhHdr attr.grh attr.sgidAttr.gid env.pdid
        (nextHeader hdrType) := if_neg hip
  have hword := @Packed.word _ _ _ _ _ h
  have hbyte := h.header
  rw [hhdr, length_grhHdr] at hbyte
  simp only [hhdr, length_grhHdr] at hword
  refine ⟨?_, ?_, ?_⟩
  · rw [show 18 = sizeofEthVlan + 0 from rfl, hword (by decide)]
    exact append_bytes (tclassFlow attr.grh)
  · rw [show 22 = sizeofEthVlan + 4 from rfl, hword (by decide)]
    exact (low_byte _ _ _ _).trans (pdidHoplimit_low _ _ _)
  · apply Vector.ext
    intro i hi
    have hget := hbyte (24 + i) (by omega)
    rw [grhHdr_dgid _ _ _ _ hi] at hget
    rw [loadGid, Vector.getElem_ofFn, ← hget]
    congr 1
    show 42 + i = 18 + (24 + i)
    omega

/-- Over IPv4 the query takes other fields, and bytes behind the header,
for the ones it wants. -/
theorem Packed.ip (h : Packed env attr .ipv4 old av) :
    av.loadBe32 18 = ipWord attr.grh.trafficClass
      ∧ ((av.loadBe32 22) &&& 0xff).setWidth 8 = 0
      ∧ loadGid av 42 = loadGid old 42 := by
  have hhdr : netHdr env attr .ipv4 (nextHeader .ipv4)
      = ipHdr env.core attr.grh attr.sgidAttr.gid env.pdid
        (nextHeader .ipv4) env.check := if_pos rfl
  have hword := @Packed.word _ _ _ _ _ h
  have hrest := h.rest
  simp only [hhdr, length_ipHdr] at hword hrest
  refine ⟨?_, ?_, ?_⟩
  · rw [show 18 = sizeofEthVlan + 0 from rfl, hword (by decide)]
    exact ipHdr_word _ _ _ _ _ _
  · rw [show 22 = sizeofEthVlan + 4 from rfl, hword (by decide)]
    exact low_byte _ _ _ _
  · apply Vector.ext
    intro i hi
    rw [loadGid, Vector.getElem_ofFn, loadGid, Vector.getElem_ofFn]
    apply hrest
    · show 42 + i < 64
      omega
    · show 18 + 20 ≤ 42 + i
      omega

end Packed

-- ========================================================= the round trip

/-- The attributes a query gives back, by the layout they are packed in.
`old` is the entry as the call found it: over IPv4 the query reads the
destination gid from bytes that stay. -/
def ReadsBack (attr : AhAttr) (old : Mem) : Prop :=
  if attr.sgidAttr.networkType = .ipv4 then
    attr.grh.trafficClass = 0x45 ∧ attr.grh.flowLabel = 0x45450000
      ∧ attr.grh.hopLimit = 0 ∧ attr.grh.dgid = loadGid old 42
  else
    readClass attr.grh.flowLabel = attr.grh.trafficClass
      ∧ attr.grh.trafficClass &&& 0x60 = 0x60

/-- Four equations, read off the words an entry holds. -/
private theorem sameRoute_iff {tbl : AvTbl} {ah : Ah}
    {given : IbGlobalRoute} {word : U32} {hop : U8} {dgid : Vector U8 16}
    (hvalid : avGetValid (tbl.va ah.av) = avValid ||| avVlanValid)
    (hread : (tbl.va ah.av).loadBe32 18 = word
      ∧ (((tbl.va ah.av).loadBe32 22) &&& 0xff).setWidth 8 = hop
      ∧ loadGid (tbl.va ah.av) 42 = dgid) :
    SameRoute given (queryAh tbl ah).grh
      ↔ (readClass word = given.trafficClass ∧ word = given.flowLabel)
        ∧ hop = given.hopLimit ∧ dgid = given.dgid := by
  obtain ⟨rfl, rfl, rfl⟩ := hread
  rw [queryAh_grh hvalid]
  exact ⟨fun h => ⟨⟨h.trafficClass, h.flowLabel⟩, h.hopLimit, h.dgid⟩,
    fun h => ⟨h.1.1, h.1.2, h.2.1, h.2.2⟩⟩

/-- A query of a handle, at any time until it is destroyed, returns what
was given at creation exactly where the layout lets it. -/
theorem query_returns_iff {tbl tbl' : AvTbl} {c : CreateAh} {ah : Ah}
    (hcreate : createAh tbl c = (.ok ah, tbl')) (calls : List AhCall)
    (hnot : ∀ ah', AhCall.destroy ah' ∈ calls → ah'.av ≠ ah.av) :
    SameRoute c.attr.grh (queryAh (calls.foldl AvTbl.step tbl') ah).grh
      ↔ ReadsBack c.attr (tbl.va ah.av) := by
  obtain ⟨av, rfl, hpacked⟩ := createAh_ok hcreate
  have hav : (tbl.set ah.av av).va ah.av = av := tbl.set_va ah.av av
  have hkept : (calls.foldl AvTbl.step (tbl.set ah.av av)).va ah.av
      = av := by
    rw [va_kept calls (by rw [hav, hpacked.valid]; decide) hnot, hav]
  generalize calls.foldl AvTbl.step (tbl.set ah.av av) = later at hkept
  subst hkept
  unfold ReadsBack
  by_cases hip : c.attr.sgidAttr.networkType = .ipv4
  · rw [hip] at hpacked
    rw [if_pos hip, sameRoute_iff hpacked.valid hpacked.ip,
      readClass_ipWord]
    constructor
    · rintro ⟨⟨htc, hflow⟩, hhop, hgid⟩
      refine ⟨htc.symm, ?_, hhop.symm, hgid.symm⟩
      rw [← hflow, ← htc]
      decide
    · rintro ⟨htc, hflow, hhop, hgid⟩
      refine ⟨⟨htc.symm, ?_⟩, hhop.symm, hgid.symm⟩
      rw [hflow, htc]
      decide
  · rw [if_neg hip, sameRoute_iff hpacked.valid (hpacked.grh hip),
      reads_grh_iff]
    simp

/-- No handle over IPv6 with a twenty-bit flow label reads back, and none
over IPv4 with one does. -/
theorem query_never_returns {attr : AhAttr} {old : Mem}
    (hlabel : attr.grh.flowLabel.toNat < 2 ^ 20) :
    ¬ ReadsBack attr old := by
  unfold ReadsBack
  split
  · rintro ⟨-, hflow, -⟩
    rw [hflow] at hlabel
    revert hlabel
    decide
  · rintro ⟨htop, hversion⟩
    have hzero : readClass attr.grh.flowLabel = 0 := by
      apply BitVec.eq_of_toNat_eq
      unfold readClass
      rw [BitVec.toNat_setWidth, BitVec.toNat_ushiftRight,
        Nat.shiftRight_eq_div_pow, Nat.div_eq_of_lt (by omega)]
      rfl
    rw [← htop, hzero] at hversion
    revert hversion
    decide

-- ============================================================== two handles

/-- A table of one entry, all zeroes. -/
def oneAv : AvTbl := ⟨fun _ _ => 0, 1⟩

/-- A kernel consumer's call on VLAN 5, over IPv6, with these values. -/
def createWith (trafficClass : U8) (flowLabel : U32) : CreateAh where
  env := ⟨⟨fun _ => none, fun _ => .replicate 4 0⟩, .replicate 6 0, 1, 0⟩
  attr :=
    { roce := true
      grhFlag := true
      grh := ⟨.replicate 16 1, flowLabel, 0, 64, trafficClass⟩
      sgidAttr := ⟨.replicate 16 2, some 5, .ipv6⟩
      dmac := .replicate 6 3 }
  udata := false
  memory := true

/-- Class 0 and label 1 come back as class 0x60 and label 0x60000001. -/
theorem label_comes_back_changed :
    (createAh oneAv (createWith 0 1)).1 = .ok ⟨0, 0, .ipv6⟩
      ∧ (queryAh (createAh oneAv (createWith 0 1)).2
          ⟨0, 0, .ipv6⟩).grh.flowLabel = 0x60000001
      ∧ ¬ SameRoute (createWith 0 1).attr.grh
          (queryAh (createAh oneAv (createWith 0 1)).2
            ⟨0, 0, .ipv6⟩).grh := by
  have hlabel : (queryAh (createAh oneAv (createWith 0 1)).2
      ⟨0, 0, .ipv6⟩).grh.flowLabel = 0x60000001 := by
    decide +kernel
  refine ⟨rfl, hlabel, fun h => ?_⟩
  have hsame := h.flowLabel
  rw [hlabel] at hsame
  revert hsame
  decide

/-- Class 0x60 under a label that repeats it comes back. -/
theorem query_returns_class_60 :
    SameRoute (createWith 0x60 0x60000001).attr.grh
      (queryAh (createAh oneAv (createWith 0x60 0x60000001)).2
        ⟨0, 0, .ipv6⟩).grh := by
  have hreads : ReadsBack (createWith 0x60 0x60000001).attr
      (oneAv.va 0) := by
    unfold ReadsBack
    rw [if_neg (by decide)]
    exact ⟨by decide, by decide⟩
  exact (@query_returns_iff oneAv _ (createWith 0x60 0x60000001)
    ⟨0, 0, .ipv6⟩ rfl [] (by simp)).2 hreads

end BxRnic.Kernel
