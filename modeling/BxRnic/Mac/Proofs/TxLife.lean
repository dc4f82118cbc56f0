/-
What the transmit path takes it gives back, whatever the NIC does and
however often the device is restarted.

A mapping that was made has been undone or is held by an entry, and so
has a packet that was accepted been freed or is held
(`TxChannel.Accounted`). The entries from the index on, up to `dirty`, are
free (`TxRing.Free`), so that a packet is put where nothing is held. Every
call keeps both; a restart and a close leave entries that hold nothing,
and so everything has been given back, once (`TxChannel.GivenBack`).

Two things get lost on the way: a mapping at address 0, and what was
mapped of a packet that fails, if the index passes 2^32 in between
(`TxChannel.Undoable`).
-/
import BxRnic.Lib.Held
import BxRnic.Mac.TxLife
import BxRnic.Mac.Proofs.TxOwner

namespace BxRnic.Mac

open Held

-- =============================================================== accounts

/-- The packets that the entries of a ring hold. -/
def TxRing.heldSkbs (ring : TxRing) : List Nat :=
  held ring.dmaDescCount.toNat fun i => (ring.descDataHead i).skb.toList

/-- Every mapping has been undone, by one call with its own address,
length and kind, or is held; every packet that was accepted has been
freed, once, or is held. -/
structure TxChannel.Accounted (ch : TxChannel) : Prop where
  buffers : (ch.logs.unmaps ++ ch.ring.heldCalls).Perm
    (undoing 0 ch.logs.maps)
  packets : (ch.logs.freed ++ ch.ring.heldSkbs).Perm
    (ch.logs.accepted.map (·.skb))

/-- Nothing is held any more. -/
structure TxChannel.GivenBack (ch : TxChannel) : Prop where
  buffers : ch.logs.unmaps.Perm (undoing 0 ch.logs.maps)
  packets : ch.logs.freed.Perm (ch.logs.accepted.map (·.skb))

/-- The entries that are not on the way to the NIC and back are free. -/
structure TxRing.Free (ring : TxRing) : Prop where
  sized : ring.Sized
  used : ring.used ≤ 4096
  clean : ∀ j, ring.used + j < 4096 →
    (ring.datas ring.cur.toNat j).Clean

/-- What every call keeps. -/
structure TxChannel.Keeps (ch : TxChannel) : Prop where
  free : ch.ring.Free
  accounted : ch.Accounted

/-- A channel that starts anew has given everything back. -/
def TxChannel.Empties (ch : TxChannel) : TxLifeAct → Prop
  | .restart flushed irqs => (ch.live (.restart flushed irqs)).GivenBack
  | .reopen => ch.close.GivenBack
  | _ => True

/-- The headers of a packet that is to be segmented are in its linear
part. -/
def TxLifeAct.HeadersLinear : TxLifeAct → Prop
  | .xmit _ skb => skb.HeadersLinear
  | _ => True

/-- What is mapped of a packet can be undone: nothing is at address 0, and
if it is only a part of the packet the index does not pass 2^32. -/
def TxChannel.Undoable (ch : TxChannel) : TxLifeAct → Prop
  | .xmit env skb =>
      let made := newMaps env.dma skb 0 skb.layout
      (∀ m ∈ made, m.dma ≠ 0)
        ∧ (made.length < skb.layout.length → made = []
          ∨ ch.ring.cur.toNat
            + (skb.contextCount ch.ring + made.length) < 2 ^ 32)
  | _ => True

-- ============================================================ the entries

section Entries

variable {ring : TxRing} {d : TxDescData}

theorem TxDescData.Clean.unmapCalls (h : d.Clean) : d.unmapCalls = [] :=
  if_neg fun hne => hne h.skbDma

theorem TxDescData.Clean.toList (h : d.Clean) : d.skb.toList = [] := by
  rw [h.skb]
  rfl

/-- The calls for the first entries of a packet are those for what was
mapped. -/
theorem held_walked {datas : Nat → TxDescData} {ctx n : Nat}
    {made : List TxMapping}
    (hclean : ∀ j < ctx + made.length, (datas j).Clean)
    (haddress : ∀ m ∈ made, m.dma ≠ 0) :
    (held (ctx + made.length) fun j =>
        ((datas j).after ctx n made j).unmapCalls)
      = undoing n made := by
  have hcontext : ((List.range' 0 ctx).flatMap fun j =>
      (datas j).unmapCalls) = [] := by
    rw [List.flatMap_eq_nil_iff]
    intro j hj
    have hbound := List.mem_range'_1.1 hj
    exact (hclean j (by omega)).unmapCalls
  have hkinds : unmapping datas ctx n made = undoing n made :=
    unmapping_eq_iff.2 fun i m hget _ =>
      (hclean _ (Nat.add_lt_add_left
        (List.getElem?_eq_some_iff.1 hget).1 ctx)).mappedAsPage
  have hused := flatMap_used datas ctx n made
  rw [hcontext, List.nil_append, hkinds, ← List.range_eq_range'] at hused
  refine hused.trans (List.filter_eq_self.2 fun u hu => ?_)
  exact decide_eq_true ((undoing_nonzero_iff n made).2 haddress u hu)

/-- Entries that are free at first and changed there only. -/
theorem held_front {α : Type} {before after : Nat → List α} {a n : Nat}
    (ha : a ≤ n) (hfree : ∀ j < a, before j = [])
    (hsame : ∀ j, a ≤ j → j < n → after j = before j) :
    held n after = held a after ++ held n before := by
  obtain ⟨r, rfl⟩ := Nat.exists_eq_add_of_le ha
  have hrest : (held r fun j => after (a + j))
      = held r fun j => before (a + j) :=
    held_congr fun j hj => hsame (a + j) (Nat.le_add_right a j) (by omega)
  rw [held_add, held_add, held_eq_nil hfree, List.nil_append, hrest]

theorem undoing_append (n : Nat) (maps new : List TxMapping) :
    undoing n (maps ++ new)
      = undoing n maps ++ undoing (n + maps.length) new := by
  induction maps generalizing n with
  | nil => rfl
  | cons m maps ih =>
    have hnext : n + 1 + maps.length = n + (maps.length + 1) := by omega
    rw [List.cons_append, undoing, undoing, ih, hnext]
    rfl

/-- More is mapped and held. -/
theorem perm_more {α : Type} {gone held held' wanted new : List α}
    (h : (gone ++ held).Perm wanted) (hheld : held'.Perm (new ++ held)) :
    (gone ++ held').Perm (wanted ++ new) := by
  apply (hheld.append_left gone).trans
  apply (List.perm_append_comm_assoc gone new held).trans
  exact List.perm_append_comm.trans (h.append_right new)

/-- Something that was held is given back. -/
theorem perm_less {α : Type} {gone held held' wanted out : List α}
    (h : (gone ++ held).Perm wanted) (hheld : (out ++ held').Perm held) :
    (gone ++ out ++ held').Perm wanted := by
  rw [List.append_assoc]
  exact (hheld.append_left gone).trans h

end Entries

-- ============================================================== the index

section Index

variable {ring ring' : TxRing}

/-- The entries from a position on are the same from its low bits on. -/
theorem datas_ofNat (ring : TxRing) (k j : Nat) :
    ring.datas (BitVec.ofNat 32 k).toNat j = ring.datas k j := by
  have hmod : (k % 2 ^ 32 + j) % 4096 = (k + j) % 4096 := by omega
  unfold TxRing.datas
  rw [BitVec.toNat_ofNat, hmod]

/-- `dirty` is the entry that comes last from the index on, where the ring
is full, and the one behind the free ones. -/
theorem dirty_entry (h : ring.Free) :
    (ring.cur.toNat + (4096 - ring.used)) % 4096
      = ring.entry ring.dirty := by
  have hentry := tx_entry_ofNat h.sized ring.dirty.toNat
  rw [BitVec.ofNat_toNat, BitVec.setWidth_eq] at hentry
  have hle := h.used
  rw [hentry]
  unfold TxRing.used at hle ⊢
  rw [BitVec.toNat_sub] at hle ⊢
  omega

/-- A packet has room. -/
theorem TxRing.Free.room {skb : Skb} (h : ring.Free)
    (hheaders : skb.HeadersLinear)
    (hroom : ¬ (ring.prepTxPkt skb).descCount > ring.availDesc) :
    ring.used + (skb.contextCount ring + skb.layout.length) ≤ 4096 := by
  have hneeded := needed_le_reserved hheaders ring.curMss ring.curVlanCtag
  have hused := h.used
  have hle := BitVec.le_def.1 (BitVec.not_lt.1 hroom)
  have hfits : ring.cur - ring.dirty ≤ ring.dmaDescCount := by
    rw [BitVec.le_def, h.sized]
    exact hused
  have havail : ring.availDesc.toNat = 4096 - ring.used := by
    rw [TxRing.availDesc, BitVec.toNat_sub_of_le hfits, h.sized]
    rfl
  rw [descCount_prepTxPkt_toNat, havail] at hle
  have hall := hneeded.trans hle
  change skb.contextCount ring + skb.layout.length ≤ _ at hall
  omega

end Index

-- ============================================================== mac_xmit

section Xmit

variable {ch ch' : TxChannel} {env : XmitEnv} {skb : Skb} {logs : TxLogs}
  {ring : TxRing}

/-- A walk that does not get to the end. -/
theorem mapAll_part {dma : Nat → Option U64} {ps : List Piece}
    {st : MapState} (h : (st.mapAll dma skb ps).2 = false) :
    (newMaps dma skb st.calls ps).length < ps.length := by
  induction ps generalizing st with
  | nil => cases h
  | cons piece ps ih =>
    rw [MapState.mapAll, MapState.mapPiece] at h
    rw [newMaps]
    cases hdma : dma st.calls with
    | none => exact Nat.succ_pos ps.length
    | some addr =>
      rw [hdma] at h
      exact Nat.succ_lt_succ (ih h)

/-- Of a packet that cannot be mapped a part was. -/
theorem mapTxSkb_part {dma : Nat → Option U64} {logs logs' : TxLogs}
    {ring ring' : TxRing}
    (hmap : TxRing.mapTxSkb dma skb logs
      { ring with pktInfo := ring.prepared skb } = (logs', ring', false)) :
    (newMaps dma skb 0 skb.layout).length < skb.layout.length := by
  have hpart : ((ring.mapStart skb logs).mapAll dma skb skb.layout).2
      = false → (newMaps dma skb 0 skb.layout).length < skb.layout.length :=
    mapAll_part
  rw [TxRing.mapTxSkb] at hmap
  dsimp only at hmap
  rw [mapTxSkb_index, mapSkb_eq] at hmap
  unfold TxRing.mapStart at hpart
  generalize MapState.mapAll dma skb _ skb.layout = walked at hmap hpart
  obtain ⟨st, ok⟩ := walked
  cases ok with
  | true => cases hmap
  | false => exact hpart rfl

/-- The flags of a queue hold nothing. -/
theorem TxChannel.Keeps.flags (h : ch.Keeps)
    (hring : ch'.ring.besideFlags = ch.ring.besideFlags)
    (hlogs : ch'.logs = ch.logs) : ch'.Keeps := by
  have hdatas := congrArg TxRing.datas hring
  have hcur := congrArg TxRing.cur hring
  have hsized := congrArg TxRing.dmaDescCount hring
  have hused := congrArg TxRing.used hring
  have hcalls := congrArg TxRing.heldCalls hring
  have hskbs := congrArg TxRing.heldSkbs hring
  change ch'.ring.datas = ch.ring.datas at hdatas
  change ch'.ring.cur = ch.ring.cur at hcur
  change ch'.ring.dmaDescCount = ch.ring.dmaDescCount at hsized
  change ch'.ring.used = ch.ring.used at hused
  change ch'.ring.heldCalls = ch.ring.heldCalls at hcalls
  change ch'.ring.heldSkbs = ch.ring.heldSkbs at hskbs
  refine ⟨⟨hsized.trans h.free.sized, ?_, ?_⟩, ?_, ?_⟩
  · rw [hused]
    exact h.free.used
  · rw [hused, hdatas, hcur]
    exact h.free.clean
  · rw [hlogs, hcalls]
    exact h.accounted.buffers
  · rw [hlogs, hskbs]
    exact h.accounted.packets

/-- Nor does a packet that is dropped. -/
theorem TxChannel.Keeps.free_skb (h : ch.Keeps) (skb : Skb) :
    (ch.free skb).Keeps :=
  ⟨h.free, h.accounted.buffers, h.accounted.packets⟩

/-- Mappings that were made and undone again. -/
theorem TxChannel.Accounted.rolledBack (h : ch.Accounted)
    {made : List TxMapping} {ds : List TxDescData}
    (hcalls : ds.flatMap (·.unmapCalls)
      = undoing ch.logs.maps.length made)
    (hskbs : ds.flatMap (·.skb.toList) = [])
    (hlogs : logs
      = { ch.logs with maps := ch.logs.maps ++ made }.unmapAll ds)
    (hheld : ring.heldCalls.Perm ch.ring.heldCalls)
    (hpackets : ring.heldSkbs.Perm ch.ring.heldSkbs) :
    TxChannel.Accounted { ch with ring := ring, logs := logs } := by
  subst hlogs
  constructor
  · show ((ch.logs.unmaps ++ ds.flatMap (·.unmapCalls))
      ++ ring.heldCalls).Perm (undoing 0 (ch.logs.maps ++ made))
    rw [hcalls, undoing_append, Nat.zero_add, List.append_assoc]
    apply perm_more h.buffers
    exact hheld.append_left _
  · show ((ch.logs.freed ++ ds.flatMap (·.skb.toList))
      ++ ring.heldSkbs).Perm _
    rw [hskbs, List.append_nil]
    exact (hpackets.append_left _).trans h.packets

/-- A packet that cannot be mapped leaves everything as it was. -/
theorem TxChannel.Keeps.unmapped (h : ch.Keeps)
    (hheaders : skb.HeadersLinear)
    (hundo : ch.Undoable (.xmit env skb))
    (hroom : ¬ (ch.ring.prepTxPkt skb).descCount > ch.ring.availDesc)
    (hmap : TxRing.mapTxSkb env.dma skb ch.logs
      { ch.ring with pktInfo := ch.ring.prepared skb }
      = (logs, ring, false)) :
    TxChannel.Keeps { ch with ring := ring, logs := logs } := by
  have hfits := h.free.room hheaders hroom
  have hsized := h.free.sized
  obtain ⟨hkept, -⟩ := mapTxSkb_kept ch.logs ch.ring hmap.symm
  have hfew := length_newMaps_le env.dma skb 0 skb.layout
  obtain ⟨hcur, hlogs, hdatas⟩ := mapTxSkb_rolled hsized (by omega) rfl hmap
  obtain ⟨haddress, hwrap⟩ := hundo
  have hpart := mapTxSkb_part hmap
  generalize newMaps env.dma skb 0 skb.layout = made at *
  have hused := congrArg TxRing.used hkept
  have hsized' := (congrArg TxRing.dmaDescCount hkept).trans hsized
  change ring.used = ch.ring.used at hused
  change ring.Sized at hsized'
  have hclean : ∀ j, ch.ring.used + j < 4096 →
      (ch.ring.datas ch.ring.cur.toNat j).Clean := h.free.clean
  generalize hdatas₀ : ch.ring.datas ch.ring.cur.toNat = datas at *
  have hwalked : ∀ j, ch.ring.walked skb ch.logs.maps.length made j
      = (datas j).after (skb.contextCount ch.ring) ch.logs.maps.length made
        j := fun j => by rw [TxRing.walked, hdatas₀]
  generalize hctx : skb.contextCount ch.ring = ctx at *
  generalize hn : ch.ring.rolled (ctx + made.length) = n at *
  -- what is not rolled back is as it was, and the rest is undone
  obtain ⟨hle, hback, hcalls⟩ : n ≤ ctx + made.length
      ∧ (∀ j, n ≤ j → ch.ring.walked skb ch.logs.maps.length made j
        = datas j)
      ∧ (held n fun j => (ch.ring.walked skb ch.logs.maps.length made
        j).unmapCalls) = undoing ch.logs.maps.length made := by
    rcases hwrap hpart with rfl | hless
    · have hshort : n ≤ ctx := by
        rw [← hn, TxRing.rolled]
        split
        · exact Nat.le_refl ctx
        · exact Nat.zero_le ctx
      refine ⟨hshort, fun j _ => by rw [hwalked, after_nil], ?_⟩
      apply held_eq_nil
      intro j hj
      rw [hwalked, after_nil]
      exact (hclean j (by omega)).unmapCalls
    · rw [TxRing.rolled, if_pos hless] at hn
      subst hn
      refine ⟨Nat.le_refl _, fun j hj => by rw [hwalked, after_behind _ _ hj],
        ?_⟩
      simp only [hwalked]
      exact held_walked (fun j hj => hclean j (by omega)) haddress
  have hentry : ∀ j < 4096, ring.datas ch.ring.cur.toNat j
      = if j < n then
          (ch.ring.walked skb ch.logs.maps.length made j).cleared
        else datas j := fun j hj => by
    rw [hdatas j hj]
    split
    · rfl
    · next hlt => exact hback j (Nat.le_of_not_lt hlt)
  -- so the entries hold what they held
  have hheld : ∀ {α : Type} (f : TxDescData → List α),
      (∀ d : TxDescData, d.Clean → f d = []) →
      (held ring.dmaDescCount.toNat fun i => f (ring.descDataHead i)).Perm
        (held ch.ring.dmaDescCount.toNat
          fun i => f (ch.ring.descDataHead i)) := fun f hf => by
    apply (held_datas hsized' f ch.ring.cur.toNat).trans
    apply List.Perm.trans _ (held_datas hsized f ch.ring.cur.toNat).symm
    apply List.Perm.of_eq
    apply held_congr
    intro j hj
    rw [hentry j hj, hdatas₀]
    split
    · next hlt =>
      rw [hf _ (clean_cleared _), hf _ (hclean j (by omega))]
    · rfl
  refine ⟨⟨hsized', ?_, fun j hj => ?_⟩, ?_⟩
  · show ring.used ≤ 4096
    rw [hused]
    exact h.free.used
  · show (ring.datas ring.cur.toNat j).Clean
    change ring.used + j < 4096 at hj
    rw [hused] at hj
    rw [hcur, hentry j (by omega)]
    split
    · exact clean_cleared _
    · exact hclean j hj
  · refine h.accounted.rolledBack ?_ ?_ hlogs
      (hheld (·.unmapCalls) fun _ hd => hd.unmapCalls)
      (hheld (·.skb.toList) fun _ hd => hd.toList)
    · rw [List.flatMap_map, ← List.range_eq_range']
      exact hcalls
    · rw [List.flatMap_map, ← List.range_eq_range']
      apply held_eq_nil
      intro j hj
      rw [hwalked, skb_after]
      exact (hclean j (by omega)).toList

/-- Mappings that are held by the entries of a packet, which the last of
them holds. -/
theorem TxChannel.Accounted.handedOn (h : ch.Accounted)
    (made : List TxMapping) (a : Accepted)
    (hlogs : logs = ch.logs.accept a made)
    (hheld : ring.heldCalls.Perm
      (undoing ch.logs.maps.length made ++ ch.ring.heldCalls))
    (hpackets : ring.heldSkbs.Perm ([a.skb] ++ ch.ring.heldSkbs)) :
    TxChannel.Accounted { ch with ring := ring, logs := logs } := by
  subst hlogs
  constructor
  · show (ch.logs.unmaps ++ ring.heldCalls).Perm
      (undoing 0 (ch.logs.maps ++ made))
    rw [undoing_append, Nat.zero_add]
    exact perm_more h.buffers hheld
  · show (ch.logs.freed ++ ring.heldSkbs).Perm
      ((ch.logs.accepted ++ [a]).map (·.skb))
    rw [List.map_append]
    exact perm_more h.packets hpackets

/-- What entry `j` from the index on holds once a packet is handed to the
NIC that takes `m` entries. -/
structure TxChannel.HoldsSent (ch ch' : TxChannel) (skb : Skb)
    (made : List TxMapping) (m j : Nat) : Prop where
  calls : (ch'.ring.datas ch.ring.cur.toNat j).unmapCalls
    = ((ch.ring.datas ch.ring.cur.toNat j).after
      (skb.contextCount ch.ring) ch.logs.maps.length made j).unmapCalls
  skb : (ch'.ring.datas ch.ring.cur.toNat j).skb
    = if j + 1 = m then some skb.id
      else (ch.ring.datas ch.ring.cur.toNat j).skb
  behind : m ≤ j → ch'.ring.datas ch.ring.cur.toNat j
    = ch.ring.datas ch.ring.cur.toNat j

theorem holds_sent (hsized : ch.ring.Sized) (hlen : skb.len ≠ 0)
    (hfits : skb.contextCount ch.ring + skb.layout.length ≤ 4096)
    (hmap : TxRing.mapTxSkb env.dma skb ch.logs
      { ch.ring with pktInfo := ch.ring.prepared skb }
      = (logs, ring, true)) :
    (ch.sent skb logs ring).ring.cur = BitVec.ofNat 32 (ch.ring.cur.toNat
        + (skb.contextCount ch.ring + skb.layout.length))
      ∧ ∀ j < 4096, ch.HoldsSent (ch.sent skb logs ring) skb
        (newMaps env.dma skb 0 skb.layout)
        (skb.contextCount ch.ring + skb.layout.length) j := by
  have hstart : ch.ring.cur = BitVec.ofNat 32 ch.ring.cur.toNat := by
    rw [BitVec.ofNat_toNat, BitVec.setWidth_eq]
  have hpos := layout_pos hlen
  have hmapped := mapped_of_sent hsized hstart hmap
  obtain ⟨hpieces, -, hentries⟩ :=
    mapTxSkb_maps hlen hsized hstart hfits hmap
  obtain ⟨hcur, -, -, hdatas⟩ :=
    devXmit_spec ch.txFrames hmapped.sized hmapped.cur hmapped.descCount
      (by rw [hmapped.contextCount]; omega) hfits
  have hcount := congrArg List.length hpieces
  rw [List.length_map] at hcount
  refine ⟨hcur, fun j hj => ?_⟩
  have hentry := hdatas j hj
  rw [hentries j hj] at hentry
  change (ch.sent skb logs ring).ring.datas _ j = _ at hentry
  refine ⟨?_, ?_, fun hle => ?_⟩
  · rw [hentry]
    split
    · rfl
    · rfl
  · rw [hentry]
    split
    · rfl
    · exact skb_after _ _ _ _ _
  · rw [hentry, if_neg (by omega), if_neg (by omega),
      after_behind _ _ (by omega)]

/-- A packet that is handed to the NIC is held by its entries. -/
theorem TxChannel.Keeps.sent (h : ch.Keeps) (hlen : skb.len ≠ 0)
    (hheaders : skb.HeadersLinear)
    (hundo : ch.Undoable (.xmit env skb))
    (hroom : ¬ (ch.ring.prepTxPkt skb).descCount > ch.ring.availDesc)
    (hmap : TxRing.mapTxSkb env.dma skb ch.logs
      { ch.ring with pktInfo := ch.ring.prepared skb }
      = (logs, ring, true)) : (ch.sent skb logs ring).Keeps := by
  have hfits := h.free.room hheaders hroom
  have hsized := h.free.sized
  have hstart : ch.ring.cur = BitVec.ofNat 32 ch.ring.cur.toNat := by
    rw [BitVec.ofNat_toNat, BitVec.setWidth_eq]
  have hpos := layout_pos hlen
  have haddress := hundo.1
  obtain ⟨hpieces, hlogs, -⟩ :=
    mapTxSkb_maps hlen hsized hstart (by omega) hmap
  obtain ⟨hcur, hentries⟩ := holds_sent hsized hlen (by omega) hmap
  have hframe := devXmit_frame ch.txFrames ring
  obtain ⟨hkept, -⟩ := mapTxSkb_kept ch.logs ch.ring hmap.symm
  have hsizeDev := congrArg (fun f => f.1) hframe
  have hdirtyDev := congrArg (fun f => f.2.1) hframe
  have hsizeMap := congrArg TxRing.dmaDescCount hkept
  have hdirtyMap := congrArg TxRing.dirty hkept
  have hdirty : (ch.sent skb logs ring).ring.dirty = ch.ring.dirty :=
    hdirtyDev.trans hdirtyMap
  have hsized' : (ch.sent skb logs ring).ring.Sized :=
    (hsizeDev.trans hsizeMap).trans hsized
  have hcount := congrArg List.length hpieces
  rw [List.length_map] at hcount
  have hclean := h.free.clean
  generalize hm : skb.contextCount ch.ring + skb.layout.length = m at *
  have hused : (ch.sent skb logs ring).ring.used = ch.ring.used + m := by
    unfold TxRing.used at hfits ⊢
    rw [hcur, hdirty]
    simp only [BitVec.toNat_sub, BitVec.toNat_ofNat] at hfits ⊢
    omega
  generalize newMaps env.dma skb 0 skb.layout = made at *
  have hend : m = skb.contextCount ch.ring + made.length := by omega
  have hfront : ∀ j < m, (ch.ring.datas ch.ring.cur.toNat j).Clean :=
    fun j hj => hclean j (by omega)
  refine ⟨⟨hsized', ?_, fun j hj => ?_⟩, ?_⟩
  · rw [hused]
    exact hfits
  · rw [hused] at hj
    have hview : (ch.sent skb logs ring).ring.datas
        (ch.ring.cur.toNat + m) j
        = (ch.sent skb logs ring).ring.datas ch.ring.cur.toNat (m + j) := by
      unfold TxRing.datas
      rw [Nat.add_assoc]
    rw [hcur, datas_ofNat, hview,
      (hentries (m + j) (by omega)).behind (Nat.le_add_right m j)]
    exact hclean (m + j) (by omega)
  · -- what the entries of the packet hold, and the others as before
    have hheld : ∀ {α : Type} (f : TxDescData → List α),
        (∀ d : TxDescData, d.Clean → f d = []) →
        (held (ch.sent skb logs ring).ring.dmaDescCount.toNat
          fun i => f ((ch.sent skb logs ring).ring.descDataHead i)).Perm
        ((held m fun j => f ((ch.sent skb logs ring).ring.datas
            ch.ring.cur.toNat j))
          ++ held ch.ring.dmaDescCount.toNat
            fun i => f (ch.ring.descDataHead i)) := fun f hf => by
      apply (held_datas hsized' f ch.ring.cur.toNat).trans
      rw [held_front (a := m) (by omega) fun j hj => hf _ (hfront j hj)]
      · exact (held_datas hsized f ch.ring.cur.toNat).symm.append_left _
      · intro j hlo hj
        rw [(hentries j hj).behind hlo]
    refine h.accounted.handedOn made (ch.note skb logs ring) ?_ ?_ ?_
    · rw [hlogs]
      rfl
    · refine (hheld (·.unmapCalls) fun _ hd => hd.unmapCalls).trans
        (List.Perm.of_eq ?_)
      congr 1
      rw [hend] at hfront ⊢
      refine Eq.trans (held_congr fun j hj => ?_)
        (held_walked hfront haddress)
      exact (hentries j (by omega)).calls
    · refine (hheld (·.skb.toList) fun _ hd => hd.toList).trans
        (List.Perm.of_eq ?_)
      congr 1
      obtain ⟨l, hl⟩ : ∃ l, m = l + 1 := ⟨m - 1, by omega⟩
      rw [hl] at hfront hentries ⊢
      rw [held_last]
      · show ((ch.sent skb logs ring).ring.datas _ l).skb.toList = _
        rw [(hentries l (by omega)).skb, if_pos rfl]
        rfl
      · intro j hj
        show ((ch.sent skb logs ring).ring.datas _ j).skb.toList = _
        rw [(hentries j (by omega)).skb, if_neg (by omega)]
        exact (hfront j (by omega)).toList

/-- Every transmission keeps the accounts. -/
theorem TxChannel.Keeps.xmit (h : ch.Keeps) (hheaders : skb.HeadersLinear)
    (hundo : ch.Undoable (.xmit env skb)) : (ch.xmit env skb).Keeps := by
  have hcase := xmit_cases env skb ch
  generalize ch.xmit env skb = out at hcase ⊢
  generalize ch.xmitRet env skb = ret at hcase
  cases hcase with
  | linkDown _ => exact h
  | empty _ => exact h.free_skb skb
  | full _ _ => exact h.flags rfl rfl
  | noHeader _ =>
    have hflags : TxChannel.Keeps { ch with ring := { ch.ring with
        pktInfo := ch.ring.prepTxPkt skb } } := h.flags rfl rfl
    exact hflags.free_skb skb
  | @unmapped logs ring _ hroom hmap =>
    exact (h.unmapped hheaders hundo hroom hmap).free_skb skb
  | @sent logs ring _ hlen _ hroom hmap =>
    obtain ⟨hring, hlogs⟩ :=
      maybeStop_flags (ch.sent skb logs ring) txMaxDescNr
    exact (h.sent hlen hheaders hundo hroom hmap).flags hring hlogs

end Xmit

-- =========================================================== mac_tx_poll

section Poll

variable {ch : TxChannel}

/-- The entry at `dirty` gives back what it holds. -/
theorem reclaim_gives (ch : TxChannel) :
    let i := ch.ring.entry ch.ring.dirty
    let d := ch.ring.descDataHead i
    ch.reclaim.ring.descDataHead
        = Function.update ch.ring.descDataHead i d.cleared
      ∧ ch.reclaim.logs.unmaps = ch.logs.unmaps ++ d.unmapCalls
      ∧ ch.reclaim.logs.freed = ch.logs.freed ++ d.skb.toList
      ∧ ch.reclaim.logs.maps = ch.logs.maps
      ∧ ch.reclaim.logs.accepted = ch.logs.accepted := by
  unfold TxChannel.reclaim
  dsimp only
  rw [unmapTxDesc_eq]
  split
  · exact ⟨rfl, rfl, rfl, rfl, rfl⟩
  · exact ⟨rfl, rfl, rfl, rfl, rfl⟩

/-- An entry that is cleared holds nothing. -/
theorem held_clear {α : Type} {datas : Nat → TxDescData} {n i : Nat}
    (hi : i < n) (f : TxDescData → List α)
    (hf : ∀ d : TxDescData, d.Clean → f d = []) :
    (f (datas i) ++ held n fun k =>
        f (Function.update datas i (datas i).cleared k)).Perm
      (held n fun k => f (datas k)) := by
  have hupdate := held_update hi (fun k => f (datas k)) []
  rw [← hf _ (clean_cleared (datas i))] at hupdate
  have hcomp : (Function.update (fun k => f (datas k)) i
      (f (datas i).cleared))
      = fun k => f (Function.update datas i (datas i).cleared k) :=
    funext fun k =>
      (Function.apply_update (fun _ => f) datas i (datas i).cleared k).symm
  rw [hcomp, hf _ (clean_cleared (datas i)), List.nil_append] at hupdate
  exact hupdate

theorem TxChannel.Keeps.reclaim (h : ch.Keeps)
    (hmore : ¬ ch.ring.dirty = ch.ring.cur) : ch.reclaim.Keeps := by
  obtain ⟨hdatas, hunmaps, hfreed, hmaps, haccepted⟩ := reclaim_gives ch
  have hused : ch.reclaim.ring.used = ch.ring.used - 1 := used_succ hmore
  have hpos : ch.ring.used ≠ 0 := fun hzero => hmore (dirty_of_used hzero)
  have hle := h.free.used
  have hsized : ch.reclaim.ring.Sized := h.free.sized
  have hdirty := dirty_entry h.free
  have hentry : ch.ring.entry ch.ring.dirty < ch.ring.dmaDescCount.toNat := by
    rw [← hdirty, h.free.sized]
    exact Nat.mod_lt _ (by decide)
  refine ⟨⟨hsized, ?_, fun j hj => ?_⟩, ?_, ?_⟩
  · omega
  · rw [hused] at hj
    show (ch.reclaim.ring.descDataHead
      ((ch.ring.cur.toNat + j) % 4096)).Clean
    rw [hdatas, ← hdirty]
    by_cases hlast : j = 4096 - ch.ring.used
    · rw [hlast, Function.update_self]
      exact clean_cleared _
    · rw [Function.update_of_ne]
      · exact h.free.clean j (by omega)
      · intro heq
        exact hlast (window_inj (by omega) (by omega) heq)
  · rw [hunmaps, hmaps]
    apply perm_less h.accounted.buffers
    show (_ ++ held _ fun i =>
      (ch.reclaim.ring.descDataHead i).unmapCalls).Perm _
    rw [hdatas]
    exact held_clear hentry _ fun _ hd => hd.unmapCalls
  · rw [hfreed, haccepted]
    apply perm_less h.accounted.packets
    show (_ ++ held _ fun i =>
      (ch.reclaim.ring.descDataHead i).skb.toList).Perm _
    rw [hdatas]
    exact held_clear hentry (·.skb.toList) fun _ hd => hd.toList

theorem TxChannel.Keeps.pollLoop (h : ch.Keeps) (left processed : Nat) :
    (ch.pollLoop ch.ring.cur left processed).2.Keeps := by
  induction left generalizing ch processed with
  | zero => exact h
  | succ left ih =>
    rw [pollLoop_succ]
    split
    · exact h
    · next hmore =>
      split
      · exact h
      · exact ih (h.reclaim hmore) (processed + 1)

theorem TxChannel.Keeps.poll (h : ch.Keeps) : ch.poll.Keeps := by
  obtain ⟨hring, hlogs⟩ := poll_flags ch
  exact (h.pollLoop txDescMaxProc 0).flags hring hlogs

end Poll

-- ============================================================== restarts

section Restart

variable {ch : TxChannel}

/-- What the entries of a ring hold, in their order. -/
theorem held_entries {α : Type} (ring : TxRing) (hsized : ring.Sized)
    (f : TxDescData → List α) :
    ((List.range' 0 4096).map (ring.datas 0)).flatMap f
      = held ring.dmaDescCount.toNat fun i => f (ring.descDataHead i) := by
  rw [List.flatMap_map, ← List.range_eq_range', hsized]
  apply held_congr
  intro k hk
  show f (ring.descDataHead ((0 + k) % 4096)) = _
  rw [Nat.zero_add, Nat.mod_eq_of_lt hk]

/-- `mac_free_tx_data` clears every entry and does to the rest nothing. -/
theorem freeTxData_spec (h : ch.ring.Sized) :
    ch.freeTxData.logs.unmaps = ch.logs.unmaps ++ ch.ring.heldCalls
      ∧ ch.freeTxData.logs.freed = ch.logs.freed ++ ch.ring.heldSkbs
      ∧ ch.freeTxData.logs.maps = ch.logs.maps
      ∧ ch.freeTxData.logs.accepted = ch.logs.accepted
      ∧ ch.freeTxData.ring.besideDatas = ch.ring.besideDatas
      ∧ ∀ i < 4096, (ch.freeTxData.ring.descDataHead i).Clean := by
  obtain ⟨hlogs, hdatas⟩ :=
    unmapFrom_spec (c := 0) 4096 0 ch.logs h (Nat.le_refl 4096)
  have hbeside := (unmapFrom_kept 4096 0 ch.logs ch.ring).1
  have hcount : ch.ring.dmaDescCount.toNat = 4096 := congrArg _ h
  unfold TxChannel.freeTxData
  rw [hcount]
  change (unmapFrom 4096 0 ch.logs ch.ring).1 = _ at hlogs
  change ∀ j, j < 4096 → (unmapFrom 4096 0 ch.logs ch.ring).2.datas 0 j
    = _ at hdatas
  generalize unmapFrom 4096 0 ch.logs ch.ring = out at *
  obtain ⟨logs, ring⟩ := out
  dsimp only at hlogs hbeside hdatas ⊢
  rw [hlogs]
  refine ⟨?_, ?_, rfl, rfl, hbeside, fun i hi => ?_⟩
  · exact congrArg (ch.logs.unmaps ++ ·) (held_entries ch.ring h _)
  · exact congrArg (ch.logs.freed ++ ·)
      (held_entries ch.ring h (·.skb.toList))
  · have hentry := hdatas i hi
    rw [if_pos ⟨Nat.zero_le i, by omega⟩] at hentry
    unfold TxRing.datas at hentry
    rw [Nat.zero_add, Nat.mod_eq_of_lt hi] at hentry
    rw [hentry]
    exact clean_cleared _

/-- A ring that holds nothing has nothing to be accounted for but what was
given back. -/
theorem TxChannel.GivenBack.keeps (h : ch.GivenBack)
    (hsized : ch.ring.Sized) (hused : ch.ring.used ≤ 4096)
    (hclean : ∀ i < 4096, (ch.ring.descDataHead i).Clean) : ch.Keeps := by
  have hcount : ch.ring.dmaDescCount.toNat = 4096 := congrArg _ hsized
  refine ⟨⟨hsized, hused, fun j _ => hclean _ (Nat.mod_lt _ (by decide))⟩,
    ?_, ?_⟩
  · have hnone : ch.ring.heldCalls = [] := by
      rw [TxRing.heldCalls, hcount]
      exact held_eq_nil fun i hi => (hclean i hi).unmapCalls
    rw [hnone, List.append_nil]
    exact h.buffers
  · have hnone : ch.ring.heldSkbs = [] := by
      rw [TxRing.heldSkbs, hcount]
      exact held_eq_nil fun i hi => (hclean i hi).toList
    rw [hnone, List.append_nil]
    exact h.packets

/-- With the entries freed everything has been given back. -/
theorem TxChannel.Keeps.givenBack (h : ch.Keeps) :
    ch.stop.freeTxData.GivenBack := by
  have hstopped : ch.stop.ring.Sized := h.free.sized
  obtain ⟨hunmaps, hfreed, hmaps, haccepted, -⟩ := freeTxData_spec hstopped
  constructor
  · rw [hunmaps, hmaps]
    exact h.accounted.buffers
  · rw [hfreed, haccepted]
    exact h.accounted.packets

theorem resetFrom_beside (left : Nat) (idx : U32) (ring : TxRing) :
    (ring.resetFrom left idx).besideDescs = ring.besideDescs := by
  induction left generalizing idx ring with
  | zero => rfl
  | succ left ih =>
    rw [TxRing.resetFrom, ih]
    rfl

/-- A ring that is set up again starts at its first entry. -/
theorem descInit_spec (ring : TxRing) :
    ring.descInit.dmaDescCount = ring.dmaDescCount
      ∧ ring.descInit.used = 0
      ∧ ring.descInit.descDataHead = ring.descDataHead := by
  have hbeside := resetFrom_beside ring.dmaDescCount.toNat 0
    { ring with
      cur := 0
      dirty := 0
      queueStopped := false
      curMss := 0
      curVlanCtag := 0 }
  have hcount := congrArg TxRing.dmaDescCount hbeside
  have hused := congrArg TxRing.used hbeside
  have hdatas := congrArg TxRing.descDataHead hbeside
  refine ⟨hcount, hused.trans ?_, hdatas⟩
  show ((0 : U32) - 0).toNat = 0
  rfl

theorem TxChannel.Keeps.restartDev (h : ch.Keeps) (flushed irqs : Bool) :
    (ch.restartDev flushed irqs).GivenBack
      ∧ (ch.restartDev flushed irqs).Keeps := by
  have hback : (ch.restartDev flushed irqs).GivenBack :=
    ⟨h.givenBack.buffers, h.givenBack.packets⟩
  have hstopped : ch.stop.ring.Sized := h.free.sized
  obtain ⟨-, -, -, -, hbeside, hclean⟩ := freeTxData_spec hstopped
  have hsized := congrArg TxRing.dmaDescCount hbeside
  have hused := congrArg TxRing.used hbeside
  change ch.stop.freeTxData.ring.dmaDescCount = ch.ring.dmaDescCount
    at hsized
  change ch.stop.freeTxData.ring.used = ch.ring.used at hused
  obtain ⟨hcount, hzero, hsame⟩ := descInit_spec ch.stop.freeTxData.ring
  refine ⟨hback, ?_⟩
  cases flushed with
  | true =>
    refine hback.keeps ((hcount.trans hsized).trans h.free.sized) ?_ ?_
    · exact (Nat.le_of_eq hzero).trans (Nat.zero_le 4096)
    · intro i hi
      show (ch.stop.freeTxData.ring.descInit.descDataHead i).Clean
      rw [hsame]
      exact hclean i hi
  | false =>
    refine hback.keeps (hsized.trans h.free.sized) ?_ hclean
    exact (Nat.le_of_eq hused).trans h.free.used

theorem TxChannel.Keeps.reopen (h : ch.Keeps) :
    ch.close.GivenBack ∧ ch.close.reopen.Keeps := by
  obtain ⟨hcount, hzero, hsame⟩ := descInit_spec .fresh
  have hback : ch.close.reopen.GivenBack :=
    ⟨h.givenBack.buffers, h.givenBack.packets⟩
  refine ⟨h.givenBack, hback.keeps hcount ?_ fun i _ => ?_⟩
  · exact (Nat.le_of_eq hzero).trans (Nat.zero_le 4096)
  · show (TxRing.fresh.descInit.descDataHead i).Clean
    rw [hsame]
    exact ⟨rfl, rfl, rfl⟩

end Restart

-- ================================================================== runs

section Runs

variable {ch : TxChannel}

theorem TxChannel.keeps_fresh (txFrames : U32) :
    (TxChannel.fresh txFrames).Keeps :=
  TxChannel.GivenBack.keeps ⟨.nil, .nil⟩ rfl
    (show ((0 : U32) - 0).toNat ≤ 4096 by decide)
    fun _ _ => ⟨rfl, rfl, rfl⟩

/-- Every action keeps the accounts, and closes them where it ends a life
of the device. -/
theorem TxChannel.Keeps.live (h : ch.Keeps) {act : TxLifeAct}
    (hheaders : act.HeadersLinear) (hundo : ch.Undoable act) :
    (ch.live act).Keeps ∧ ch.Empties act := by
  cases act with
  | xmit env skb => exact ⟨h.xmit hheaders hundo, trivial⟩
  | poll => exact ⟨h.poll, trivial⟩
  | nic descs =>
    exact ⟨⟨⟨h.free.sized, h.free.used, h.free.clean⟩,
      h.accounted.buffers, h.accounted.packets⟩, trivial⟩
  | restart flushed irqs =>
    obtain ⟨hback, hkeeps⟩ := h.restartDev flushed irqs
    exact ⟨hkeeps, hback⟩
  | reopen =>
    obtain ⟨hback, hkeeps⟩ := h.reopen
    exact ⟨hkeeps, hback⟩

/-- Over every run of transmissions, polls, restarts and closes, whatever
the NIC writes, every mapping and every packet is accounted for, and each
restart and each close gives all of them back, once. -/
theorem transmissions_given_back (txFrames : U32) (acts : List TxLifeAct)
    (hheaders : ∀ act ∈ acts, act.HeadersLinear)
    (hundo : Run.Each TxChannel.live TxChannel.Undoable (.fresh txFrames)
      acts) :
    Run.Always TxChannel.live TxChannel.Accounted (.fresh txFrames) acts
      ∧ Run.Each TxChannel.live TxChannel.Empties (.fresh txFrames)
        acts := by
  have hboth := (Run.each_of_forall_mem hheaders _).and hundo
  have hstart := TxChannel.keeps_fresh txFrames
  constructor
  · exact (hboth.always (fun _ _ h hact => (h.live hact.1 hact.2).1)
      hstart).mono fun _ h => h.accounted
  · exact hboth.each_of_inv (fun _ _ h hact => (h.live hact.1 hact.2).1)
      hstart fun _ _ h hact => (h.live hact.1 hact.2).2

/-- The address of a mapping is an answer of the kernel's. -/
theorem newMaps_answer {dma : Nat → Option U64} {skb : Skb} {calls : Nat}
    {ps : List Piece} {m : TxMapping} (h : m ∈ newMaps dma skb calls ps) :
    ∃ i, dma i = some m.dma := by
  induction ps generalizing calls with
  | nil => exact absurd h List.not_mem_nil
  | cons piece ps ih =>
    rw [newMaps] at h
    cases hdma : dma calls with
    | none =>
      rw [hdma] at h
      exact absurd h List.not_mem_nil
    | some addr =>
      rw [hdma] at h
      rcases List.mem_cons.1 h with rfl | hrest
      · exact ⟨calls, hdma⟩
      · exact ih hrest

/-- A packet on the way when the device is restarted. -/
def sentAndRestarted : List TxLifeAct :=
  [.xmit ⟨true, true, fun _ => some 0x1000⟩ oneByte, .restart true true]

theorem transmissions_given_back_restarted :
    Run.Each TxChannel.live TxChannel.Empties (.fresh 0)
      sentAndRestarted := by
  refine (transmissions_given_back 0 _ ?_ ?_).2
  · rw [sentAndRestarted]
    simp only [List.forall_mem_cons]
    exact ⟨fun htso => absurd htso (by decide), trivial,
      fun _ hnone => absurd hnone List.not_mem_nil⟩
  · refine ⟨⟨fun m hm => ?_, fun _ => Or.inr ?_⟩, trivial, trivial⟩
    · obtain ⟨i, hi⟩ := newMaps_answer hm
      rw [← Option.some.inj hi]
      decide
    · have hfew := length_newMaps_le (fun _ => some 0x1000) oneByte 0
        oneByte.layout
      have hneeded : oneByte.contextCount TxRing.fresh
          + oneByte.layout.length < 2 ^ 20 := needed_lt oneByte _ _
      show 0 + (oneByte.contextCount TxRing.fresh
        + (newMaps (fun _ => some 0x1000) oneByte 0
          oneByte.layout).length) < 2 ^ 32
      omega

end Runs

end BxRnic.Mac
