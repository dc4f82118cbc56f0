/-
How many descriptors a packet is counted for and how many it takes.

`mac_prep_tx_pkt` and `mac_map_tx_skb` walk the packet each on their own.
What the second walk maps is a list of stretches known beforehand
(`Skb.layout`), in the order of the entries they are mapped into
(`mapSkb_eq`). The first walk counts the pieces of every part
(`prepTxPkt_descCount`). It does not take the TSO header off the linear
part, so it may count one too many, and with the header inside the
linear part never too few (`needed_le_reserved`).
-/
import BxRnic.Mac.TxRing

namespace BxRnic.Mac

-- =========================================================== attributes

section Attributes

variable (ring : TxRing) (skb : Skb)

/-- The attributes of a packet. -/
def attributesOf (tso csum vlan : Bool) : U32 :=
  let attributes : U32 :=
    if tso then Field.set (Field.set 0 1 1 1) 0 1 1
    else if csum then Field.set 0 0 1 1
    else 0
  if vlan then Field.set attributes 2 1 1 else attributes

theorem attributesOf_tso : ∀ tso csum vlan,
    decide (Field.get (attributesOf tso csum vlan) 1 1 ≠ 0) = tso := by
  decide

theorem attributesOf_vlan : ∀ tso csum vlan,
    decide (Field.get (attributesOf tso csum vlan) 2 1 ≠ 0) = vlan := by
  decide

theorem prepTxPkt_tso : (ring.prepTxPkt skb).tso = skb.isTso :=
  attributesOf_tso skb.isTso skb.csumPartial skb.vlanTag.isSome

theorem prepTxPkt_vlan : (ring.prepTxPkt skb).vlan = skb.vlanTag.isSome :=
  attributesOf_vlan skb.isTso skb.csumPartial skb.vlanTag.isSome

/-- The packet as it is mapped: all of its fields are set. -/
def TxRing.prepared (ring : TxRing) (skb : Skb) : PktInfo :=
  prepVlan skb (prepTso skb (ring.prepTxPkt skb))

theorem prepVlan_attributes (pkt : PktInfo) :
    (prepVlan skb pkt).attributes = pkt.attributes := by
  unfold prepVlan
  cases skb.vlanTag <;> rfl

theorem prepTso_attributes (pkt : PktInfo) :
    (prepTso skb pkt).attributes = pkt.attributes := by
  unfold prepTso
  split <;> rfl

theorem prepared_attributes :
    (ring.prepared skb).attributes = (ring.prepTxPkt skb).attributes := by
  rw [TxRing.prepared, prepVlan_attributes, prepTso_attributes]

theorem prepared_tso : (ring.prepared skb).tso = skb.isTso := by
  rw [← prepTxPkt_tso ring, PktInfo.tso, PktInfo.tso,
    prepared_attributes]

theorem prepared_vlan :
    (ring.prepared skb).vlan = skb.vlanTag.isSome := by
  rw [← prepTxPkt_vlan ring, PktInfo.vlan, PktInfo.vlan,
    prepared_attributes]

/-- The TSO header as it is mapped. -/
def Skb.headerLen (skb : Skb) : U32 := skb.transportOffset + skb.tcpHdrlen

variable {skb}

theorem prepared_headerLen (h : skb.isTso = true) :
    (ring.prepared skb).headerLen = skb.headerLen := by
  have hprep : (prepTso skb (ring.prepTxPkt skb)).headerLen
      = skb.headerLen := by
    rw [prepTso, if_pos (by rw [prepTxPkt_tso, h])]
    rfl
  rw [← hprep, TxRing.prepared, prepVlan]
  cases skb.vlanTag <;> rfl

theorem prepared_mss (h : skb.isTso = true) :
    (ring.prepared skb).mss = skb.gsoSize := by
  have hprep : (prepTso skb (ring.prepTxPkt skb)).mss = skb.gsoSize := by
    rw [prepTso, if_pos (by rw [prepTxPkt_tso, h])]
  rw [← hprep, TxRing.prepared, prepVlan]
  cases skb.vlanTag <;> rfl

theorem prepared_vlanCtag {tag : U16} (h : skb.vlanTag = some tag) :
    (ring.prepared skb).vlanCtag = tag := by
  rw [TxRing.prepared, prepVlan, h]

/-- A context descriptor is for a segment size or a tag other than the
last one. -/
def Skb.needsContext (skb : Skb) (curMss curVlanCtag : U16) : Bool :=
  (skb.isTso && skb.gsoSize ≠ curMss)
    || skb.vlanTag.any fun tag => tag ≠ curVlanCtag

theorem needsContext_prepared (ring' : TxRing) :
    ring'.needsContext (ring.prepared skb)
      = skb.needsContext ring'.curMss ring'.curVlanCtag := by
  rw [TxRing.needsContext, Skb.needsContext, prepared_tso, prepared_vlan]
  congr 1
  · cases h : skb.isTso with
    | false => rfl
    | true => rw [prepared_mss ring h]
  · cases h : skb.vlanTag with
    | none => rfl
    | some tag =>
      rw [prepared_vlanCtag ring h]
      rfl

end Attributes

-- =============================================================== pieces

/-- The pieces a stretch of a packet is mapped in. -/
def pieces (src : Source) (offset datalen : U32) : List Piece :=
  if h : datalen = 0 then []
  else
    have := sub_pieceLen_lt h
    ⟨src, offset, pieceLen datalen⟩
      :: pieces src (offset + pieceLen datalen)
        (datalen - pieceLen datalen)
termination_by datalen.toNat

/-- How many pieces so many bytes are mapped in. -/
def pieceCount (n : Nat) : Nat := (n + (txMaxBufSize - 1)) / txMaxBufSize

theorem pieceCount_step {n : Nat} (h : n ≠ 0) :
    pieceCount n = pieceCount (n - txMaxBufSize) + 1 := by
  simp only [pieceCount, txMaxBufSize]
  omega

theorem pieceCount_mono {m n : Nat} (h : m ≤ n) :
    pieceCount m ≤ pieceCount n := by
  simp only [pieceCount, txMaxBufSize]
  omega

theorem length_pieces (src : Source) (offset datalen : U32) :
    (pieces src offset datalen).length = pieceCount datalen.toNat := by
  induction offset, datalen using pieces.induct with
  | case1 offset =>
    rw [pieces, dif_pos rfl]
    rfl
  | case2 offset datalen h _ ih =>
    have hne : datalen.toNat ≠ 0 := fun h0 =>
      h (BitVec.eq_of_toNat_eq h0)
    rw [pieces, dif_neg h, List.length_cons, ih, sub_pieceLen_toNat,
      pieceCount_step hne]

theorem countPieces_eq (descCount len : U32) :
    countPieces descCount len
      = descCount + BitVec.ofNat 32 (pieceCount len.toNat) := by
  induction descCount, len using countPieces.induct with
  | case1 descCount =>
    rw [countPieces, dif_pos rfl]
    exact (BitVec.add_zero _).symm
  | case2 descCount len h _ ih =>
    have hne : len.toNat ≠ 0 := fun h0 => h (BitVec.eq_of_toNat_eq h0)
    rw [countPieces, dif_neg h, ih, sub_pieceLen_toNat,
      pieceCount_step hne, BitVec.ofNat_add, BitVec.add_assoc,
      BitVec.add_comm 1]
    rfl

/-- How many pieces the fragments are mapped in. -/
def fragCount (sizes : List U32) : Nat :=
  (sizes.map fun size => pieceCount size.toNat).sum

theorem fragCount_cons (size : U32) (sizes : List U32) :
    fragCount (size :: sizes)
      = pieceCount size.toNat + fragCount sizes := by
  rw [fragCount, List.map_cons, List.sum_cons]
  rfl

theorem foldl_countPieces (descCount : U32) (sizes : List U32) :
    sizes.foldl countPieces descCount
      = descCount + BitVec.ofNat 32 (fragCount sizes) := by
  induction sizes generalizing descCount with
  | nil => exact (BitVec.add_zero _).symm
  | cons size sizes ih =>
    rw [List.foldl_cons, ih, countPieces_eq, fragCount_cons,
      BitVec.ofNat_add, BitVec.add_assoc]

/-- The pieces of the fragments from number `i` on. -/
def fragPieces : (i : Nat) → List U32 → List Piece
  | _, [] => []
  | i, size :: sizes => pieces (.frag i) 0 size ++ fragPieces (i + 1) sizes

theorem length_fragPieces (i : Nat) (sizes : List U32) :
    (fragPieces i sizes).length = fragCount sizes := by
  induction sizes generalizing i with
  | nil => rfl
  | cons size sizes ih =>
    rw [fragPieces, List.length_append, length_pieces, ih,
      fragCount_cons]

/-- Everything `mac_map_tx_skb` maps, in order: the TSO header, the
remainder of the linear part and the fragments. -/
def Skb.layout (skb : Skb) : List Piece :=
  if skb.isTso then
    ⟨.linear, 0, skb.headerLen⟩
      :: pieces .linear skb.headerLen (skb.headlen - skb.headerLen)
      ++ fragPieces 0 skb.frags
  else pieces .linear 0 skb.headlen ++ fragPieces 0 skb.frags

theorem length_layout (skb : Skb) :
    skb.layout.length
      = if skb.isTso then
          1 + pieceCount (skb.headlen - skb.headerLen).toNat
            + fragCount skb.frags
        else pieceCount skb.headlen.toNat + fragCount skb.frags := by
  rw [Skb.layout]
  cases skb.isTso with
  | true =>
    rw [if_pos rfl, if_pos rfl, List.length_append, List.length_cons,
      length_pieces, length_fragPieces]
    omega
  | false =>
    rw [if_neg Bool.false_ne_true, if_neg Bool.false_ne_true,
      List.length_append, length_pieces, length_fragPieces]

-- ============================================================= the walk

section Walk

variable (dma : Nat → Option U64) (skb : Skb)

/-- A list of pieces is mapped, as far as the kernel maps them. -/
def MapState.mapAll (st : MapState) : List Piece → MapState × Bool
  | [] => (st, true)
  | piece :: rest =>
      match st.mapPiece dma skb piece with
      | none => (st, false)
      | some st => mapAll st rest

theorem mapAll_append (st : MapState) (xs ys : List Piece) :
    st.mapAll dma skb (xs ++ ys)
      = match st.mapAll dma skb xs with
        | (st, false) => (st, false)
        | (st, true) => st.mapAll dma skb ys := by
  induction xs generalizing st with
  | nil => rfl
  | cons piece xs ih =>
    rw [List.cons_append, MapState.mapAll, MapState.mapAll]
    cases st.mapPiece dma skb piece with
    | none => rfl
    | some st => exact ih st

theorem mapData_eq (src : Source) (st : MapState)
    (offset datalen : U32) :
    st.mapData dma skb src offset datalen
      = st.mapAll dma skb (pieces src offset datalen) := by
  induction st, offset, datalen using MapState.mapData.induct dma skb src
    with
  | case1 st offset =>
    rw [MapState.mapData, dif_pos rfl, pieces, dif_pos rfl]
    rfl
  | case2 st offset datalen h _ hnone =>
    rw [MapState.mapData, dif_neg h, pieces, dif_neg h, MapState.mapAll]
    rw [hnone]
  | case3 st offset datalen h _ st' hsome ih =>
    rw [MapState.mapData, dif_neg h, pieces, dif_neg h, MapState.mapAll]
    rw [hsome]
    exact ih

theorem mapFrags_eq (st : MapState) (i : Nat) (sizes : List U32) :
    st.mapFrags dma skb i sizes
      = st.mapAll dma skb (fragPieces i sizes) := by
  induction sizes generalizing st i with
  | nil => rfl
  | cons size sizes ih =>
    rw [MapState.mapFrags, fragPieces, mapAll_append, mapData_eq]
    cases st.mapAll dma skb (pieces (.frag i) 0 size) with
    | mk st' ok =>
      cases ok with
      | false => rfl
      | true => exact ih st' (i + 1)

/-- The walk over a packet maps its layout. -/
theorem mapSkb_eq (ring : TxRing) (st : MapState) :
    st.mapSkb dma skb (ring.prepared skb)
      = st.mapAll dma skb skb.layout := by
  rw [MapState.mapSkb, prepared_tso, Skb.layout]
  cases h : skb.isTso with
  | false =>
    have hzero : skb.headlen - 0 = skb.headlen := BitVec.sub_zero _
    simp only [Bool.false_eq_true, if_false, mapData_eq, mapFrags_eq,
      hzero]
    exact (mapAll_append dma skb st _ _).symm
  | true =>
    simp only [if_true, List.cons_append, MapState.mapAll, mapData_eq,
      mapFrags_eq, prepared_headerLen ring h]
    cases st.mapPiece dma skb ⟨.linear, 0, skb.headerLen⟩ with
    | none => rfl
    | some st' =>
      exact (mapAll_append dma skb st' _ _).symm

end Walk

-- =========================================================== the counts

section Counts

/-- The context descriptor and the pieces: what a packet takes. -/
def Skb.needed (skb : Skb) (curMss curVlanCtag : U16) : Nat :=
  (if skb.needsContext curMss curVlanCtag then 1 else 0)
    + skb.layout.length

/-- What a packet is counted for. -/
def Skb.reserved (skb : Skb) (curMss curVlanCtag : U16) : Nat :=
  (if skb.needsContext curMss curVlanCtag then 1 else 0)
    + ((if skb.isTso then 1 else 0) + pieceCount skb.headlen.toNat
      + fragCount skb.frags)

theorem prepTxPkt_descCount (ring : TxRing) (skb : Skb) :
    (ring.prepTxPkt skb).descCount
      = BitVec.ofNat 32 (skb.reserved ring.curMss ring.curVlanCtag) := by
  have hcount : (ring.prepTxPkt skb).descCount
      = skb.frags.foldl countPieces (countPieces
          (BitVec.ofNat 32
            ((if skb.needsContext ring.curMss ring.curVlanCtag then 1
              else 0) + (if skb.isTso then 1 else 0))) skb.headlen) := by
    unfold TxRing.prepTxPkt Skb.needsContext
    dsimp only
    congr 2
    cases skb.isTso with
    | false =>
      cases skb.vlanTag with
      | none => rfl
      | some tag => by_cases htag : tag = ring.curVlanCtag <;> simp [htag]
    | true =>
      by_cases hmss : skb.gsoSize = ring.curMss
      · cases skb.vlanTag with
        | none => simp [hmss]
        | some tag =>
          by_cases htag : tag = ring.curVlanCtag <;> simp [hmss, htag]
      · cases skb.vlanTag <;> simp [hmss]
  rw [hcount, foldl_countPieces, countPieces_eq, Skb.reserved,
    ← BitVec.ofNat_add, ← BitVec.ofNat_add]
  congr 1
  omega

/-- The TSO header lies in the linear part. -/
def Skb.HeadersLinear (skb : Skb) : Prop :=
  skb.isTso = true → skb.headerLen ≤ skb.headlen

instance (skb : Skb) : Decidable skb.HeadersLinear :=
  inferInstanceAs (Decidable (_ → _))

variable {skb : Skb}

/-- The walk that maps needs no more than the walk that counts allows
for. -/
theorem needed_le_reserved (h : skb.HeadersLinear)
    (curMss curVlanCtag : U16) :
    skb.needed curMss curVlanCtag ≤ skb.reserved curMss curVlanCtag := by
  rw [Skb.needed, Skb.reserved, length_layout]
  refine Nat.add_le_add_left ?_ _
  cases htso : skb.isTso with
  | false => simp
  | true =>
    have hle : (skb.headlen - skb.headerLen).toNat ≤ skb.headlen.toNat := by
      rw [BitVec.toNat_sub_of_le (h htso)]
      exact Nat.sub_le _ _
    have hmono := pieceCount_mono hle
    simp only [if_true]
    omega

theorem fragCount_le (sizes : List U32) :
    fragCount sizes * txMaxBufSize
      ≤ (sizes.map (·.toNat)).sum + sizes.length * (txMaxBufSize - 1) := by
  induction sizes with
  | nil => exact Nat.le_refl 0
  | cons size sizes ih =>
    have hpiece : pieceCount size.toNat * txMaxBufSize
        ≤ size.toNat + (txMaxBufSize - 1) := by
      simp only [pieceCount, txMaxBufSize]
      omega
    rw [fragCount_cons, List.map_cons, List.sum_cons, List.length_cons,
      Nat.add_mul, Nat.add_mul]
    omega

/-- The count does not wrap. -/
theorem reserved_lt (skb : Skb) (curMss curVlanCtag : U16) :
    skb.reserved curMss curVlanCtag < 2 ^ 32 := by
  have hfrags := fragCount_le skb.frags
  have hlen := skb.len_eq
  have hn := skb.frags_le
  have hlt := skb.len.isLt
  have hhead : pieceCount skb.headlen.toNat * txMaxBufSize
      ≤ skb.headlen.toNat + txMaxBufSize := by
    simp only [pieceCount, txMaxBufSize]
    omega
  have hmul : skb.frags.length * (txMaxBufSize - 1)
      ≤ 255 * (txMaxBufSize - 1) := Nat.mul_le_mul_right _ hn
  have hctx : (if skb.needsContext curMss curVlanCtag then 1 else 0) ≤ 1 :=
    by split <;> omega
  have htso : (if skb.isTso then 1 else 0) ≤ 1 := by split <;> omega
  unfold Skb.reserved
  simp only [txMaxBufSize] at *
  omega

/-- What a packet takes is far from wrapping, wherever its headers
lie. -/
theorem needed_lt (skb : Skb) (curMss curVlanCtag : U16) :
    skb.needed curMss curVlanCtag < 2 ^ 20 := by
  have hfrags := fragCount_le skb.frags
  have hlen := skb.len_eq
  have hlt := skb.len.isLt
  have hpiece : ∀ x : U32, pieceCount x.toNat < 2 ^ 19 := fun x => by
    have hx := x.isLt
    simp only [pieceCount, txMaxBufSize]
    omega
  have hmul : skb.frags.length * (txMaxBufSize - 1)
      ≤ 255 * (txMaxBufSize - 1) := Nat.mul_le_mul_right _ skb.frags_le
  have hrest := hpiece (skb.headlen - skb.headerLen)
  have hhead := hpiece skb.headlen
  have hctx : (if skb.needsContext curMss curVlanCtag then 1 else 0) ≤ 1 :=
    by split <;> omega
  have hlayout : skb.layout.length ≤ 1 + 2 ^ 19 + fragCount skb.frags := by
    rw [length_layout]
    split <;> omega
  rw [Skb.needed]
  simp only [txMaxBufSize] at *
  omega

/-- The context slot and the pieces, counted in 32 bits. -/
theorem descCount_prepTxPkt_toNat (ring : TxRing) (skb : Skb) :
    (ring.prepTxPkt skb).descCount.toNat
      = skb.reserved ring.curMss ring.curVlanCtag := by
  rw [prepTxPkt_descCount, BitVec.toNat_ofNat,
    Nat.mod_eq_of_lt (reserved_lt skb _ _)]

/-- A packet of at most `MAX_SKB_FRAGS` fragments and `GSO_MAX_SIZE` bytes
is counted for at most `MAC_TX_MAX_DESC_NR`. -/
theorem reserved_le_max (hfrags : skb.frags.length ≤ maxSkbFrags)
    (hlen : skb.len.toNat ≤ gsoMaxSize) (curMss curVlanCtag : U16) :
    skb.reserved curMss curVlanCtag ≤ txMaxDescNr.toNat := by
  have hcount := fragCount_le skb.frags
  have hsum := skb.len_eq
  have hhead : pieceCount skb.headlen.toNat * txMaxBufSize
      ≤ skb.headlen.toNat + (txMaxBufSize - 1) := by
    simp only [pieceCount, txMaxBufSize]
    omega
  have hmul : skb.frags.length * (txMaxBufSize - 1)
      ≤ maxSkbFrags * (txMaxBufSize - 1) := Nat.mul_le_mul_right _ hfrags
  have hctx : (if skb.needsContext curMss curVlanCtag then 1 else 0) ≤ 1 :=
    by split <;> omega
  have htso : (if skb.isTso then 1 else 0) ≤ 1 := by split <;> omega
  have hmax : txMaxDescNr.toNat = 24 := rfl
  unfold Skb.reserved
  simp only [txMaxBufSize, maxSkbFrags, gsoMaxSize] at *
  omega

end Counts

-- ============================================================== packets

/-- Nothing has been logged. -/
def TxLogs.none : TxLogs := ⟨[], [], [], [], [], 0, [], []⟩

/-- Two parts of a hundred bytes. -/
def twoParts : Skb where
  id := 0
  len := 200
  headlen := 100
  frags := [100]
  csumPartial := false
  gsoSize := 0
  gsoSegs := 0
  vlanTag := none
  transportOffset := 0
  tcpHdrlen := 0
  frags_le := by decide
  len_eq := by decide

theorem length_layout_twoParts : twoParts.layout.length = 2 := by
  rw [length_layout]
  decide

/-- A tagged packet that is to be segmented, with its headers in the
linear part. It takes six descriptors: a context descriptor, the headers,
the rest of the linear part, a fragment in one piece and one in two. -/
def taggedTso : Skb where
  id := 1
  len := 23200
  headlen := 200
  frags := [3000, 20000]
  csumPartial := true
  gsoSize := 1448
  gsoSegs := 16
  vlanTag := some 5
  transportOffset := 34
  tcpHdrlen := 20
  frags_le := by decide
  len_eq := by decide

theorem length_layout_taggedTso : taggedTso.layout.length = 5 := by
  rw [length_layout]
  decide

theorem headersLinear_taggedTso : taggedTso.HeadersLinear := by decide

end BxRnic.Mac
