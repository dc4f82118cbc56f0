/-
What the chain of a packet tells the NIC.

The descriptors a packet is given are zero before. So the marks of a
descriptor are those of its place in the chain (`chainDesc_marks`), and
its buffer is what the entry holds (`chainDesc_buffer`), as long as the
length has 14 bits. The buffers of the data descriptors are the bytes of
the packet, each once and in order (`layout_bytes`).
-/
import BxRnic.Mac.Proofs.TxReserve
import BxRnic.Mac.Proofs.TxSlots

namespace BxRnic.Mac

-- ============================================================ the marks

/-- The bits of a transmit descriptor that say what it is. -/
structure Marks where
  own : Bool
  ctxt : Bool
  fd : Bool
  ld : Bool
deriving DecidableEq

/-- The marks of a descriptor. -/
def DmaDesc.marks (d : DmaDesc) : Marks where
  own := d.own
  ctxt := Field.get d.desc3 30 1 = 1
  fd := Field.get d.desc3 29 1 = 1
  ld := d.isLast

/-- The buffer of a transmit descriptor: its address and its length. -/
def DmaDesc.buffer (d : DmaDesc) : U64 × U32 :=
  (d.desc1 ++ d.desc0, Field.get d.desc2 0 14)

section Marks

variable {pkt : PktInfo} {data : TxDescData} {p : Nat}

/-- A field below bit 28 leaves the marks alone. -/
theorem high_set {v x : U32} {pos len : Nat}
    (hp : p = 28 ∨ p = 29 ∨ p = 30 ∨ p = 31) (hlow : pos + len ≤ 28) :
    Field.get (Field.set v pos len x) p 1 = Field.get v p 1 :=
  Field.get_set_of_apart (by omega) (by omega) (Or.inl (by omega))

/-- The high bits of a context descriptor. -/
theorem contextDesc_high (hp : p = 28 ∨ p = 29 ∨ p = 30 ∨ p = 31)
    {tsoContext vlanContext : Bool}
    (hcontext : (tsoContext || vlanContext) = true) :
    Field.get (pkt.contextDesc tsoContext vlanContext .zero).desc3 p 1
      = if p = 30 then 1 else 0 := by
  unfold PktInfo.contextDesc
  cases tsoContext with
  | false =>
    cases vlanContext with
    | false => cases hcontext
    | true =>
      simp only [Bool.false_eq_true, if_false, if_true]
      rw [high_set hp (by decide), high_set hp (by decide)]
      rcases hp with rfl | rfl | rfl | rfl <;> decide
  | true =>
    cases vlanContext with
    | false =>
      simp only [Bool.false_eq_true, if_false, if_true]
      rw [high_set hp (by decide)]
      rcases hp with rfl | rfl | rfl | rfl <;> decide
    | true =>
      simp only [if_true]
      rw [high_set hp (by decide), high_set hp (by decide)]
      rcases hp with rfl | rfl | rfl | rfl <;> decide

/-- The high bits of the first data descriptor. -/
theorem firstDesc_high (hp : p = 28 ∨ p = 29 ∨ p = 30 ∨ p = 31)
    (own : Bool) :
    Field.get (pkt.firstDesc data own .zero).desc3 p 1
      = if p = 29 ∨ (p = 31 ∧ own = true) then 1 else 0 := by
  let base : U32 := Field.set (Field.set 0 29 1 1) 30 1 0
  have hlow : Field.get (pkt.firstDesc data own .zero).desc3 p 1
      = Field.get (if own then Field.set base 31 1 1 else base) p 1 := by
    unfold PktInfo.firstDesc
    dsimp only
    by_cases htso : pkt.tso = true
    · rw [if_pos htso]
      rw [high_set hp (by decide), high_set hp (by decide),
        high_set hp (by decide)]
      rfl
    · rw [if_neg htso, high_set hp (by decide)]
      split
      · rw [high_set hp (by decide), high_set hp (by decide)]
        rfl
      · rw [high_set hp (by decide)]
        rfl
  rw [hlow]
  rcases hp with rfl | rfl | rfl | rfl <;> cases own <;> decide

/-- The high bits of a data descriptor behind the first. -/
theorem nextDesc_high (hp : p = 28 ∨ p = 29 ∨ p = 30 ∨ p = 31) :
    Field.get (pkt.nextDesc data .zero).desc3 p 1
      = if p = 31 then 1 else 0 := by
  have hlow : Field.get (pkt.nextDesc data .zero).desc3 p 1
      = Field.get (Field.set (Field.set (0 : U32) 31 1 1) 30 1 0) p 1 := by
    unfold PktInfo.nextDesc
    dsimp only
    split
    · rw [high_set hp (by decide)]
      rfl
    · rfl
  rw [hlow]
  rcases hp with rfl | rfl | rfl | rfl <;> decide

/-- The high bits without the marks of the last and the first. -/
theorem chainBody_high {ring : TxRing} {c j : Nat}
    (hp : p = 28 ∨ p = 29 ∨ p = 30 ∨ p = 31)
    (hzero : ring.descs c j = .zero) :
    Field.get (ring.chainBody c j).desc3 p 1
      = if (p = 30 ∧ j < ring.contextCount)
          ∨ (p = 29 ∧ j = ring.contextCount) ∨ (p = 31 ∧ j ≠ 0) then 1
        else 0 := by
  have hone := contextCount_le ring
  unfold TxRing.chainBody
  dsimp only
  rw [hzero]
  rcases Nat.lt_trichotomy j ring.contextCount with hlt | heq | hgt
  · have hcontext : ring.needsContext ring.pktInfo = true := by
      by_contra hnot
      rw [TxRing.contextCount, if_neg hnot] at hlt
      exact Nat.not_lt_zero j hlt
    rw [if_pos hlt, contextDesc_high hp hcontext]
    refine if_congr ?_ rfl rfl
    omega
  · rw [if_neg (by omega), if_pos heq, firstDesc_high hp]
    refine if_congr ?_ rfl rfl
    rw [decide_eq_true_iff]
    omega
  · rw [if_neg (by omega), if_neg (by omega), nextDesc_high hp]
    refine if_congr ?_ rfl rfl
    omega

theorem high_setLast {d : DmaDesc} {ic : Bool}
    (hp : p = 28 ∨ p = 29 ∨ p = 30 ∨ p = 31) :
    Field.get (d.setLast ic).desc3 p 1
      = if p = 28 then 1 else Field.get d.desc3 p 1 := by
  unfold DmaDesc.setLast
  by_cases h28 : p = 28
  · rw [if_pos h28, h28]
    exact Field.get_set (by decide)
  · rw [if_neg h28]
    exact Field.get_set_of_apart (by decide) (by omega) (by omega)

theorem high_setOwn {d : DmaDesc}
    (hp : p = 28 ∨ p = 29 ∨ p = 30 ∨ p = 31) :
    Field.get d.setOwn.desc3 p 1
      = if p = 31 then 1 else Field.get d.desc3 p 1 := by
  unfold DmaDesc.setOwn
  by_cases h31 : p = 31
  · rw [if_pos h31, h31]
    exact Field.get_set (by decide)
  · rw [if_neg h31]
    exact Field.get_set_of_apart (by decide) (by omega) (by omega)

/-- The high bits of a descriptor of the chain. -/
theorem chainDesc_high {ring : TxRing} {txFrames : U32} {c m j : Nat}
    (hp : p = 28 ∨ p = 29 ∨ p = 30 ∨ p = 31)
    (hzero : ring.descs c j = .zero) :
    Field.get (ring.chainDesc txFrames c m j).desc3 p 1
      = if p = 31 ∨ (p = 30 ∧ j < ring.contextCount)
          ∨ (p = 29 ∧ j = ring.contextCount) ∨ (p = 28 ∧ j + 1 = m) then 1
        else 0 := by
  have hbody := chainBody_high hp hzero
  have hmarked : Field.get (if j + 1 = m then
        (ring.chainBody c j).setLast (ring.setIc txFrames)
      else ring.chainBody c j).desc3 p 1
      = if (p = 30 ∧ j < ring.contextCount)
          ∨ (p = 29 ∧ j = ring.contextCount) ∨ (p = 31 ∧ j ≠ 0)
          ∨ (p = 28 ∧ j + 1 = m) then 1
        else 0 := by
    by_cases hlast : j + 1 = m
    · rw [if_pos hlast, high_setLast hp, hbody]
      by_cases h28 : p = 28
      · rw [if_pos h28, if_pos (by omega)]
      · rw [if_neg h28]
        refine if_congr ?_ rfl rfl
        omega
    · rw [if_neg hlast, hbody]
      refine if_congr ?_ rfl rfl
      omega
  unfold TxRing.chainDesc
  dsimp only
  by_cases hfirst : j = 0
  · rw [if_pos hfirst, high_setOwn hp, hmarked]
    by_cases h31 : p = 31
    · rw [if_pos h31, if_pos (Or.inl h31)]
    · rw [if_neg h31]
      refine if_congr ?_ rfl rfl
      omega
  · rw [if_neg hfirst, hmarked]
    refine if_congr ?_ rfl rfl
    omega

/-- A descriptor of the chain has the marks of its place. -/
theorem chainDesc_marks {ring : TxRing} {c m j : Nat} (txFrames : U32)
    (hzero : ring.descs c j = .zero) :
    (ring.chainDesc txFrames c m j).marks
      = ⟨true, j < ring.contextCount, j = ring.contextCount,
        j + 1 = m⟩ := by
  have hbit : ∀ {Q : Prop} [Decidable Q],
      decide ((if Q then (1 : U32) else 0) = 1) = decide Q := by
    intro Q _
    by_cases hQ : Q
    · rw [if_pos hQ, decide_eq_true hQ]
      rfl
    · rw [if_neg hQ, decide_eq_false hQ]
      rfl
  unfold DmaDesc.marks DmaDesc.own DmaDesc.isLast
  rw [chainDesc_high (by decide) hzero, chainDesc_high (by decide) hzero,
    chainDesc_high (by decide) hzero, chainDesc_high (by decide) hzero,
    hbit, hbit, hbit, hbit]
  simp

-- =========================================================== the buffers

/-- The two halves of an address. -/
theorem halves (x : U64) :
    (x >>> 32).setWidth 32 ++ x.setWidth 32 = x := by
  refine BitVec.eq_of_getLsbD_eq fun i hi => ?_
  rw [BitVec.getLsbD_append]
  by_cases hlow : i < 32
  · simp [hlow]
  · have hsub : 32 + (i - 32) = i := by omega
    have hrest : i - 32 < 32 := by omega
    simp [hlow, hrest, hsub]

theorem buffer_firstDesc (pkt : PktInfo) (data : TxDescData) (own : Bool)
    (d : DmaDesc) :
    (pkt.firstDesc data own d).buffer
      = (data.skbDma, Field.get data.skbDmaLen 0 14) := by
  have hlen : Field.get (pkt.firstDesc data own d).desc2 0 14
      = Field.get data.skbDmaLen 0 14 := by
    have hlow : ∀ (v x : U32) {pos len : Nat}, pos + len ≤ 32 → 14 ≤ pos →
        Field.get (Field.set v pos len x) 0 14 = Field.get v 0 14 :=
      fun v x _ _ hfit hpos =>
        Field.get_set_of_apart hfit (by decide) (Or.inr hpos)
    unfold PktInfo.firstDesc
    dsimp only
    by_cases hptp : pkt.ptp = true
    · rw [if_pos hptp, hlow _ _ (by decide) (by decide)]
      by_cases hvlan : pkt.vlan = true
      · rw [if_pos hvlan, hlow _ _ (by decide) (by decide)]
        exact Field.get_set (by decide)
      · rw [if_neg hvlan]
        exact Field.get_set (by decide)
    · rw [if_neg hptp]
      by_cases hvlan : pkt.vlan = true
      · rw [if_pos hvlan, hlow _ _ (by decide) (by decide)]
        exact Field.get_set (by decide)
      · rw [if_neg hvlan]
        exact Field.get_set (by decide)
  exact Prod.ext (halves data.skbDma) hlen

theorem buffer_nextDesc (pkt : PktInfo) (data : TxDescData) (d : DmaDesc) :
    (pkt.nextDesc data d).buffer
      = (data.skbDma, Field.get data.skbDmaLen 0 14) :=
  Prod.ext (halves data.skbDma) (Field.get_set (by decide))

theorem buffer_setLast (d : DmaDesc) (ic : Bool) :
    (d.setLast ic).buffer = d.buffer := by
  refine Prod.ext rfl ?_
  cases ic with
  | false => rfl
  | true =>
    exact Field.get_set_of_apart (by decide) (by decide)
      (Or.inr (by decide))

/-- The buffer of a data descriptor is that of its entry. -/
theorem chainDesc_buffer {ring : TxRing} {c m j : Nat} (txFrames : U32)
    (hj : ring.contextCount ≤ j) :
    (ring.chainDesc txFrames c m j).buffer
      = ((ring.datas c j).skbDma,
        Field.get (ring.datas c j).skbDmaLen 0 14) := by
  have hbody : (ring.chainBody c j).buffer
      = ((ring.datas c j).skbDma,
        Field.get (ring.datas c j).skbDmaLen 0 14) := by
    unfold TxRing.chainBody
    dsimp only
    rw [if_neg (Nat.not_lt.2 hj)]
    split
    · exact buffer_firstDesc _ _ _ _
    · exact buffer_nextDesc _ _ _
  have hmarked : (if j + 1 = m then
        (ring.chainBody c j).setLast (ring.setIc txFrames)
      else ring.chainBody c j).buffer = (ring.chainBody c j).buffer := by
    split
    · exact buffer_setLast _ _
    · rfl
  unfold TxRing.chainDesc
  dsimp only
  split
  · exact hmarked.trans hbody
  · exact hmarked.trans hbody

end Marks

-- ============================================================= the bytes

/-- Bytes of a packet, known by where they lie. -/
def bytesOf (src : Source) (off len : Nat) : List (Source × Nat) :=
  (List.range' off len).map fun i => (src, i)

/-- The bytes of a piece. -/
def Piece.bytes (piece : Piece) : List (Source × Nat) :=
  bytesOf piece.src piece.off.toNat piece.len.toNat

/-- The bytes of the fragments from number `i` on. -/
def fragBytes : (i : Nat) → List U32 → List (Source × Nat)
  | _, [] => []
  | i, size :: sizes =>
      bytesOf (.frag i) 0 size.toNat ++ fragBytes (i + 1) sizes

/-- The bytes of a packet. -/
def Skb.bytes (skb : Skb) : List (Source × Nat) :=
  bytesOf .linear 0 skb.headlen.toNat ++ fragBytes 0 skb.frags

section Bytes

theorem bytesOf_append (src : Source) (off m n : Nat) :
    bytesOf src off m ++ bytesOf src (off + m) n
      = bytesOf src off (m + n) := by
  unfold bytesOf
  rw [← List.map_append, List.range'_append_1]

/-- The pieces of a stretch are its bytes. -/
theorem pieces_bytes (src : Source) (offset datalen : U32)
    (h : offset.toNat + datalen.toNat < 2 ^ 32) :
    (pieces src offset datalen).flatMap Piece.bytes
      = bytesOf src offset.toNat datalen.toNat := by
  induction offset, datalen using pieces.induct with
  | case1 offset =>
    rw [pieces, dif_pos rfl]
    rfl
  | case2 offset datalen hne _ ih =>
    have hlen := pieceLen_toNat datalen
    have hnext : (offset + pieceLen datalen).toNat
        = offset.toNat + (pieceLen datalen).toNat := by
      rw [BitVec.toNat_add, Nat.mod_eq_of_lt (by omega)]
    have hrest := sub_pieceLen_toNat datalen
    have hsum : (pieceLen datalen).toNat
        + (datalen - pieceLen datalen).toNat = datalen.toNat := by
      omega
    rw [pieces, dif_neg hne, List.flatMap_cons, ih (by omega), hnext]
    show bytesOf src _ _ ++ _ = _
    rw [bytesOf_append, hsum]

theorem fragPieces_bytes (i : Nat) (sizes : List U32) :
    (fragPieces i sizes).flatMap Piece.bytes = fragBytes i sizes := by
  induction sizes generalizing i with
  | nil => rfl
  | cons size sizes ih =>
    have hsize : (0 : U32).toNat + size.toNat < 2 ^ 32 := by
      show 0 + size.toNat < 2 ^ 32
      rw [Nat.zero_add]
      exact size.isLt
    rw [fragPieces, fragBytes, List.flatMap_append, ih,
      pieces_bytes _ _ _ hsize]
    rfl

variable {skb : Skb}

/-- What is mapped of a packet is the packet, in order. -/
theorem layout_bytes (h : skb.HeadersLinear) :
    skb.layout.flatMap Piece.bytes = skb.bytes := by
  unfold Skb.layout Skb.bytes
  cases htso : skb.isTso with
  | false =>
    have hlen : (0 : U32).toNat + skb.headlen.toNat < 2 ^ 32 := by
      show 0 + skb.headlen.toNat < 2 ^ 32
      rw [Nat.zero_add]
      exact skb.headlen.isLt
    rw [if_neg Bool.false_ne_true, List.flatMap_append,
      fragPieces_bytes, pieces_bytes _ _ _ hlen]
    rfl
  | true =>
    have hle := BitVec.le_def.1 (h htso)
    have hlt := skb.headlen.isLt
    have hrest : (skb.headlen - skb.headerLen).toNat
        = skb.headlen.toNat - skb.headerLen.toNat :=
      BitVec.toNat_sub_of_le (h htso)
    rw [if_pos rfl, List.flatMap_append, List.flatMap_cons,
      fragPieces_bytes, pieces_bytes _ _ _ (by omega), hrest]
    have hheader : Piece.bytes ⟨.linear, 0, skb.headerLen⟩
        = bytesOf .linear 0 skb.headerLen.toNat := rfl
    have happend := bytesOf_append .linear 0 skb.headerLen.toNat
      (skb.headlen.toNat - skb.headerLen.toNat)
    rw [Nat.zero_add, Nat.add_sub_cancel' hle] at happend
    rw [hheader, happend]

theorem pieces_short (src : Source) (offset datalen : U32) :
    ∀ piece ∈ pieces src offset datalen, piece.len.toNat < 2 ^ 14 := by
  induction offset, datalen using pieces.induct with
  | case1 offset =>
    rw [pieces, dif_pos rfl]
    exact fun piece hmem => absurd hmem List.not_mem_nil
  | case2 offset datalen hne _ ih =>
    rw [pieces, dif_neg hne]
    refine List.forall_mem_cons.2 ⟨?_, ih⟩
    show (pieceLen datalen).toNat < 2 ^ 14
    rw [pieceLen_toNat, txMaxBufSize]
    omega

theorem fragPieces_short (i : Nat) (sizes : List U32) :
    ∀ piece ∈ fragPieces i sizes, piece.len.toNat < 2 ^ 14 := by
  induction sizes generalizing i with
  | nil => exact fun piece hmem => absurd hmem List.not_mem_nil
  | cons size sizes ih =>
    rw [fragPieces]
    exact List.forall_mem_append.2 ⟨pieces_short _ _ _, ih (i + 1)⟩

/-- The pieces have lengths of 14 bits, if the TSO header has. -/
theorem layout_short
    (h : skb.isTso = true → skb.headerLen.toNat < 2 ^ 14) :
    ∀ piece ∈ skb.layout, piece.len.toNat < 2 ^ 14 := by
  unfold Skb.layout
  cases htso : skb.isTso with
  | false =>
    rw [if_neg Bool.false_ne_true]
    exact List.forall_mem_append.2
      ⟨pieces_short _ _ _, fragPieces_short _ _⟩
  | true =>
    rw [if_pos rfl]
    refine List.forall_mem_append.2 ⟨?_, fragPieces_short _ _⟩
    exact List.forall_mem_cons.2 ⟨h htso, pieces_short _ _ _⟩

end Bytes

-- ============================================================ the mappings

section Mappings

variable {dma : Nat → Option U64} {skb : Skb}

/-- A walk that gets to the end maps every piece. -/
theorem newMaps_pieces {ps : List Piece} {st : MapState}
    (h : (st.mapAll dma skb ps).2 = true) :
    (newMaps dma skb st.calls ps).map (·.piece) = ps := by
  induction ps generalizing st with
  | nil => rfl
  | cons piece ps ih =>
    rw [MapState.mapAll, MapState.mapPiece] at h
    rw [newMaps]
    cases hdma : dma st.calls with
    | none =>
      rw [hdma] at h
      cases h
    | some addr =>
      rw [hdma] at h
      exact congrArg (piece :: ·) (ih h)

/-- What a mapping that succeeds leaves in the logs and the entries. -/
theorem mapTxSkb_maps {logs logs' : TxLogs} {ring ring' : TxRing}
    {c : Nat} (hskb : skb.len ≠ 0) (hsized : ring.Sized)
    (hcur : ring.cur = BitVec.ofNat 32 c)
    (hfits : skb.contextCount ring + skb.layout.length ≤ 4096)
    (hmap : TxRing.mapTxSkb dma skb logs
      { ring with pktInfo := ring.prepared skb } = (logs', ring', true)) :
    (newMaps dma skb 0 skb.layout).map (·.piece) = skb.layout
      ∧ logs' = { logs with
        maps := logs.maps ++ newMaps dma skb 0 skb.layout }
      ∧ ∀ j, j < 4096 → ring'.datas c j
        = if j + 1 = skb.contextCount ring + skb.layout.length then
            { (ring.datas c j).after (skb.contextCount ring)
                logs.maps.length (newMaps dma skb 0 skb.layout) j with
              skb := some skb.id }
          else (ring.datas c j).after (skb.contextCount ring)
            logs.maps.length (newMaps dma skb 0 skb.layout) j := by
  have hindex : BitVec.ofNat 32
      (ring.cur.toNat + skb.contextCount ring)
      = BitVec.ofNat 32 (c + skb.contextCount ring) := by
    rw [BitVec.ofNat_add, BitVec.ofNat_add, BitVec.ofNat_toNat,
      BitVec.setWidth_eq, hcur]
  rw [TxRing.mapTxSkb] at hmap
  dsimp only at hmap
  rw [mapTxSkb_index, hindex, mapSkb_eq] at hmap
  let start : MapState := ⟨{ ring with pktInfo := ring.prepared skb },
    BitVec.ofNat 32 (c + skb.contextCount ring), 0, 0, logs.maps⟩
  have hfew := length_newMaps_le dma skb 0 skb.layout
  have hmade := mapAll_made (c := c) dma skb skb.layout start
    (skb.contextCount ring) rfl
  have hbeside := mapAll_kept dma skb skb.layout start
  have hdatas : ∀ j, j < 4096 →
      (start.mapAll dma skb skb.layout).1.ring.datas c j
        = (ring.datas c j).after (skb.contextCount ring)
          logs.maps.length (newMaps dma skb 0 skb.layout) j := fun j hj =>
    mapAll_spec dma skb skb.layout start (skb.contextCount ring) hsized rfl
      ((Nat.add_le_add_left hfew _).trans hfits) hj
  have hpieces : (start.mapAll dma skb skb.layout).2 = true →
      (newMaps dma skb 0 skb.layout).map (·.piece) = skb.layout :=
    newMaps_pieces
  generalize hwalk : MapState.mapAll dma skb _ skb.layout = walked at hmap
  change start.mapAll dma skb skb.layout = walked at hwalk
  rw [hwalk] at hmade hbeside hdatas hpieces
  obtain ⟨st, ok⟩ := walked
  cases ok with
  | false => cases hmap
  | true =>
    obtain ⟨hmaps, hidx⟩ := hmade
    have hpieces := hpieces rfl
    have hlen : (newMaps dma skb 0 skb.layout).length
        = skb.layout.length := by
      rw [← congrArg List.length hpieces, List.length_map]
    have hpos := layout_pos hskb
    have hlast : st.curIndex - 1 = BitVec.ofNat 32
        (c + (skb.contextCount ring + skb.layout.length - 1)) := by
      have hsucc : c + (skb.contextCount ring + skb.layout.length)
          = c + (skb.contextCount ring + skb.layout.length - 1) + 1 := by
        omega
      have hend : st.curIndex = BitVec.ofNat 32 (c + (skb.contextCount ring
          + (newMaps dma skb 0 skb.layout).length)) := hidx
      rw [hend, hlen, hsucc, ← Counter.add_one, BitVec.add_sub_cancel]
    have hsized' : st.ring.Sized :=
      (congrArg TxRing.dmaDescCount hbeside).trans hsized
    cases hmap
    refine ⟨hpieces, congrArg (fun maps => { logs with maps := maps }) hmaps,
      fun j hj => ?_⟩
    show (st.ring.updData (st.curIndex - 1) fun d =>
      { d with skb := some skb.id }).datas c j = _
    rw [hlast, datas_updData _ hsized' (by omega) hj]
    by_cases hjm : j + 1 = skb.contextCount ring + skb.layout.length
    · rw [if_pos (by omega), if_pos hjm, ← hjm, Nat.add_sub_cancel]
      exact congrArg (fun d : TxDescData => { d with skb := some skb.id })
        (hdatas j hj)
    · rw [if_neg (by omega), if_neg hjm]
      exact hdatas j hj

end Mappings

-- ============================================================ the packet

/-- What is noted of a packet that takes `m` descriptors. -/
def TxChannel.noted (ch : TxChannel) (skb : Skb) (m : Nat)
    (maps : List TxMapping) : Accepted where
  skb := skb.id
  start := ch.logs.posted
  descCount := m
  firstMap := ch.logs.maps.length
  mapCount := maps.length
  bytes := (ch.ring.prepared skb).txBytes

/-- What a packet that is handed to the NIC leaves: a chain of `m`
descriptors from the index on, the last of all written being the first of
the chain. One of them is a context descriptor, if the segment size or the
tag is not the one sent last; the others have the buffers that were
mapped, and these are the packet. -/
structure TxChannel.Describes (ch ch' : TxChannel) (skb : Skb) (m : Nat)
    (maps : List TxMapping) : Prop where
  wrote : ch.ring.Wrote ch'.ring
    ((List.range m ++ [m - 1, 0]).map fun j =>
      (ch.ring.cur.toNat + j) % 4096)
  cur : ch'.ring.cur = ch.ring.cur + BitVec.ofNat 32 m
  marks : ∀ j, j < m → (ch'.ring.descs ch.ring.cur.toNat j).marks
    = ⟨true, j < skb.contextCount ch.ring, j = skb.contextCount ch.ring,
      j + 1 = m⟩
  buffers : ((List.range' (skb.contextCount ch.ring) maps.length).map
      fun j => (ch'.ring.descs ch.ring.cur.toNat j).buffer)
    = maps.map fun p => (p.dma, p.piece.len)
  count : m = skb.contextCount ch.ring + maps.length
  bytes : maps.flatMap (fun p => p.piece.bytes) = skb.bytes
  context : ch'.ring.context
    = (if skb.isTso then skb.gsoSize else ch.ring.curMss,
      skb.vlanTag.getD ch.ring.curVlanCtag)
  logs : ch'.logs = ch.logs.accept (ch.noted skb m maps) maps

/-- The ring a packet leaves, from position `posted` on. -/
structure TxChannel.Chained (ch : TxChannel) (skb : Skb) (ring : TxRing)
    (m : Nat) (maps : List TxMapping) : Prop where
  mapped : ring.Mapped ch.ring skb ch.logs.posted
  count : m = skb.contextCount ch.ring + maps.length
  pieces : maps.map (·.piece) = skb.layout
  descs : ∀ j, j < 4096 →
    (ring.devXmit ch.txFrames).descs ch.logs.posted j
      = if j < m then ring.chainDesc ch.txFrames ch.logs.posted m j
        else ch.ring.descs ch.logs.posted j
  entries : ∀ j, j < 4096 → ring.datas ch.logs.posted j
    = if j + 1 = m then
        { (ch.ring.datas ch.logs.posted j).after
            (skb.contextCount ch.ring) ch.logs.maps.length maps j with
          skb := some skb.id }
      else (ch.ring.datas ch.logs.posted j).after
        (skb.contextCount ch.ring) ch.logs.maps.length maps j
  datas : ∀ j, j < 4096 →
    (ring.devXmit ch.txFrames).datas ch.logs.posted j
      = if j + 1 = m then
          { ring.datas ch.logs.posted j with
            packets := ring.pktInfo.txPackets
            bytes := (ch.ring.prepared skb).txBytes }
        else ring.datas ch.logs.posted j

section Packet

variable {ch : TxChannel} {skb : Skb} {dma : Nat → Option U64}
  {logs : TxLogs} {ring : TxRing} {m : Nat} {maps : List TxMapping}

/-- The window of the ring from its index on. -/
theorem TxChannel.RingInv.window (h : ch.RingInv) (j : Nat) :
    (ch.ring.cur.toNat + j) % 4096 = (ch.logs.posted + j) % 4096 := by
  rw [h.cur, BitVec.toNat_ofNat]
  omega

/-- What is told last is what the packet has, if it has it. -/
theorem prepared_context (ring : TxRing) (skb : Skb) (length : U32)
    (descCount : U32) (curMss curVlanCtag : U16) :
    let pkt := { ring.prepared skb with
      length := length, descCount := descCount }
    (if pkt.tso then pkt.mss else curMss,
      if pkt.vlan then pkt.vlanCtag else curVlanCtag)
      = (if skb.isTso then skb.gsoSize else curMss,
        skb.vlanTag.getD curVlanCtag) := by
  intro pkt
  have htso : pkt.tso = skb.isTso := prepared_tso ring skb
  have hvlan : pkt.vlan = skb.vlanTag.isSome := prepared_vlan ring skb
  rw [htso, hvlan]
  congr 1
  · cases hcase : skb.isTso with
    | false => rfl
    | true => exact prepared_mss ring hcase
  · cases hcase : skb.vlanTag with
    | none => rfl
    | some tag => exact prepared_vlanCtag ring hcase

/-- The chain of a packet and its entries. -/
theorem TxChannel.RingInv.chained (h : ch.RingInv) (hlen : skb.len ≠ 0)
    (hheaders : skb.HeadersLinear)
    (hroom : ¬ (ch.ring.prepTxPkt skb).descCount > ch.ring.availDesc)
    (hmap : TxRing.mapTxSkb dma skb ch.logs
      { ch.ring with pktInfo := ch.ring.prepared skb }
      = (logs, ring, true)) :
    ch.Chained skb ring (skb.contextCount ch.ring + skb.layout.length)
      (newMaps dma skb 0 skb.layout) := by
  have hfits := h.room hheaders hroom
  have hordered := h.ordered
  have hpos := layout_pos hlen
  have hmapped := mapped_of_sent h.sized h.cur hmap
  obtain ⟨hpieces, -, hentries⟩ :=
    mapTxSkb_maps hlen h.sized h.cur (by omega) hmap
  obtain ⟨length, hpkt⟩ := mapTxSkb_sent hmap
  have hcount : (newMaps dma skb 0 skb.layout).length
      = skb.layout.length := by
    rw [← congrArg List.length hpieces, List.length_map]
  obtain ⟨-, -, hdescs, hdatas⟩ :=
    devXmit_spec ch.txFrames hmapped.sized hmapped.cur hmapped.descCount
      (by rw [hmapped.contextCount]; omega) (by omega)
  refine ⟨hmapped, by rw [hcount], hpieces, fun j hj => ?_, hentries,
    fun j hj => ?_⟩
  · rw [hdescs j hj]
    refine if_congr Iff.rfl rfl ?_
    exact congrArg (fun descs : Nat → DmaDesc =>
      descs ((ch.logs.posted + j) % 4096)) hmapped.dmaDescs
  · rw [hdatas j hj, hpkt]

/-- The entry of a piece holds its mapping. -/
theorem TxChannel.Chained.entry_dma (h : ch.Chained skb ring m maps)
    {i : Nat} (hi : i < maps.length) (hm : m ≤ 4096) :
    (ring.datas ch.logs.posted (skb.contextCount ch.ring + i)).skbDma
        = maps[i].dma
      ∧ (ring.datas ch.logs.posted
          (skb.contextCount ch.ring + i)).skbDmaLen
        = maps[i].piece.len := by
  have hcount := h.count
  rw [h.entries _ (by omega), after_at _ _ _ hi]
  split
  · exact ⟨rfl, rfl⟩
  · exact ⟨rfl, rfl⟩

/-- A packet that is handed to the NIC is described by its chain. -/
theorem TxChannel.RingInv.describes (h : ch.RingInv)
    (hlen : skb.len ≠ 0) (hheaders : skb.HeadersLinear)
    (hshort : skb.isTso = true → skb.headerLen.toNat < 2 ^ 14)
    (hzero : ∀ k, ch.logs.posted ≤ k → k < ch.logs.reclaimed + 4096 →
      ch.ring.dmaDescs (k % 4096) = .zero)
    (hroom : ¬ (ch.ring.prepTxPkt skb).descCount > ch.ring.availDesc)
    (hmap : TxRing.mapTxSkb dma skb ch.logs
      { ch.ring with pktInfo := ch.ring.prepared skb }
      = (logs, ring, true)) :
    ch.Describes (ch.sent skb logs ring) skb
      (skb.contextCount ch.ring + skb.layout.length)
      (newMaps dma skb 0 skb.layout) := by
  have hfits := h.room hheaders hroom
  have hordered := h.ordered
  have hchained := h.chained hlen hheaders hroom hmap
  obtain ⟨hpieces, hlogs, -⟩ :=
    mapTxSkb_maps hlen h.sized h.cur (by omega) hmap
  obtain ⟨length, hpkt⟩ := mapTxSkb_sent hmap
  have hpos := layout_pos hlen
  have hshorts : ∀ p ∈ newMaps dma skb 0 skb.layout,
      p.piece.len.toNat < 2 ^ 14 := fun p hp =>
    layout_short hshort _ (hpieces ▸ List.mem_map_of_mem hp)
  have hmapped := hchained.mapped
  obtain ⟨hcur, hwrote, -, -⟩ :=
    devXmit_spec ch.txFrames hmapped.sized hmapped.cur hmapped.descCount
      (by rw [hmapped.contextCount]; omega) (by omega)
  generalize hm : skb.contextCount ch.ring + skb.layout.length = m at *
  generalize newMaps dma skb 0 skb.layout = maps at *
  have hcount := hchained.count
  have hwindow : ∀ j, (ch.sent skb logs ring).ring.descs
      ch.ring.cur.toNat j
        = (ring.devXmit ch.txFrames).descs ch.logs.posted j := fun j =>
    congrArg (ring.devXmit ch.txFrames).dmaDescs (h.window j)
  have hentry : ∀ j, j < m →
      ring.descs ch.logs.posted j = .zero := fun j hj => by
    show ring.dmaDescs _ = _
    rw [hmapped.dmaDescs]
    exact hzero _ (Nat.le_add_right _ _) (by omega)
  refine ⟨?_, ?_, fun j hj => ?_, ?_, hcount, ?_, ?_, ?_⟩
  · obtain ⟨new, heq, hentries⟩ := hwrote
    refine ⟨new, heq.trans (by rw [hmapped.writes]), hentries.trans ?_⟩
    exact List.map_congr_left fun j _ => (h.window j).symm
  · rw [h.cur, ← BitVec.ofNat_add]
    exact hcur
  · rw [hwindow, hchained.descs j (by omega), if_pos hj,
      chainDesc_marks _ (hentry j hj), hmapped.contextCount]
  · refine List.ext_getElem (by rw [List.length_map, List.length_map,
      List.length_range']) fun i hi hi' => ?_
    rw [List.length_map] at hi'
    obtain ⟨haddr, hdmaLen⟩ := hchained.entry_dma hi' (by omega)
    rw [List.getElem_map, List.getElem_range', Nat.one_mul, hwindow,
      hchained.descs _ (by omega), if_pos (by omega),
      chainDesc_buffer _ (by rw [hmapped.contextCount]; omega), haddr,
      hdmaLen, Field.get_zero_of_lt (by decide)
        (hshorts _ (List.getElem_mem hi')), List.getElem_map]
  · rw [← layout_bytes hheaders, ← hpieces, List.flatMap_map]
  · obtain ⟨hkept, -⟩ := mapTxSkb_kept ch.logs ch.ring hmap.symm
    have hmss := congrArg TxRing.curMss hkept
    have hvlan := congrArg TxRing.curVlanCtag hkept
    have hcontext := devXmit_context ch.txFrames ring
    rw [hpkt, show ring.curMss = ch.ring.curMss from hmss,
      show ring.curVlanCtag = ch.ring.curVlanCtag from hvlan] at hcontext
    exact hcontext.trans (prepared_context _ _ _ _ _ _)
  · have hdescCount : ring.pktInfo.descCount.toNat = m := by
      rw [hmapped.descCount, hm, BitVec.toNat_ofNat,
        Nat.mod_eq_of_lt (by omega)]
    have hmapCount : logs.maps.length - ch.logs.maps.length
        = maps.length := by
      rw [hlogs, List.length_append, Nat.add_sub_cancel_left]
    unfold TxChannel.sent TxChannel.note TxLogs.accept TxChannel.noted
    dsimp only
    rw [hdescCount, hmapCount, hlogs]

end Packet

end BxRnic.Mac
