/-
Receive side scaling is only on with the driver's hash key and lookup
table in the NIC.

The tables are written register by register, and a write that the NIC does
not finish in time ends the loop. What it leaves is a mixture of what was
there and of what the driver has, and one command that is still to be
carried out. Turned on for the first time, the scaling then stays off;
where it was on already, the NIC had the driver's tables, and a mixture of
these with themselves is the same (`Rss.Sound`).
-/
import BxRnic.Lib.Run
import BxRnic.Mac.Rss

namespace BxRnic.Mac

open Indirect

-- ================================================================== one write

section Write

variable (clock : Nat → Bool)

theorem rssPort_busy (r : RssRegs) : rssPort.busy r = r.ob := by
  show (RssRegs.view r).command.isSome = r.ob
  unfold RssRegs.view
  cases r.ob with
  | false => rfl
  | true => rfl

/-- The NIC does not touch `MAC_RSSCR`. -/
theorem rsscr_finish (r : RssRegs) : (rssPort.finish r).rsscr = r.rsscr := by
  show (RssRegs.finish r).rsscr = r.rsscr
  unfold RssRegs.finish
  split
  · dsimp only
    split
    · rfl
    · rfl
  · rfl

theorem rsscr_tick (s : RssHw) :
    (rssPort.tick clock s).dev.rsscr = s.dev.rsscr := by
  unfold Port.tick
  dsimp only
  split
  · exact rsscr_finish s.dev
  · rfl

theorem rsscr_wait (times : Nat) (s : RssHw) :
    (rssPort.wait clock times s).2.dev.rsscr = s.dev.rsscr := by
  induction times generalizing s with
  | zero => rfl
  | succ times ih =>
    rw [Port.wait]
    split
    · rw [ih, rsscr_tick]
    · exact rsscr_tick clock s

/-- The fields of the command. -/
theorem rssCommand_fields (rssar type index : U32) :
    Field.get (rssCommand rssar type index) 0 1 = 1
      ∧ Field.get (rssCommand rssar type index) 1 1 = 0
      ∧ Field.get (rssCommand rssar type index) 2 1 = Field.get type 0 1
      ∧ Field.get (rssCommand rssar type index) 8 8
        = Field.get index 0 8 := by
  unfold rssCommand
  refine ⟨?_, ?_, ?_, ?_⟩
  · rw [Field.get_set (by omega)]
    decide
  · rw [Field.get_set_of_apart (by omega) (by omega) (by omega),
      Field.get_set (by omega)]
    decide
  · rw [Field.get_set_of_apart (by omega) (by omega) (by omega),
      Field.get_set_of_apart (by omega) (by omega) (by omega),
      Field.get_set (by omega)]
  · rw [Field.get_set_of_apart (by omega) (by omega) (by omega),
      Field.get_set_of_apart (by omega) (by omega) (by omega),
      Field.get_set_of_apart (by omega) (by omega) (by omega),
      Field.get_set (by omega)]

/-- The entry that a type and an index name. -/
def rssEntry (type index : U32) : Bool × Nat :=
  (Field.get type 0 1 = 1, (Field.get index 0 8).toNat)

/-- What the two writes are at the table. -/
theorem view_command (r : RssRegs) (type index val : U32) :
    rssPort.view
      { r with rssdr := val, rssar := rssCommand r.rssar type index }
      = ((rssPort.view r).setData val).issue (rssEntry type index)
        false := by
  obtain ⟨hob, hct, htype, hindex⟩ := rssCommand_fields r.rssar type index
  show RssRegs.view _ = _
  unfold RssRegs.view RssRegs.ob RssRegs.ct RssRegs.addr
  dsimp only
  rw [hob, hct, htype, hindex]
  rfl

/-- A table with an entry written. -/
def written (t : Table (Bool × Nat) U32) (a : Bool × Nat) (val : U32) :
    Table (Bool × Nat) U32 where
  entry := Function.update t.entry a val
  data := val
  command := none

/-- `mac_write_rss_reg` writes the entry, or fails: before it has begun,
or with the write still under way. -/
theorem writeRssReg_spec (type index val : U32) (s : RssHw) :
    (writeRssReg clock type index val s).2.dev.rsscr = s.dev.rsscr
      ∧ (rssPort.settled (writeRssReg clock type index val s).2.dev
          = written (rssPort.settled s.dev) (rssEntry type index) val
        ∨ ((writeRssReg clock type index val s).1 = -EBUSY
          ∧ rssPort.settled (writeRssReg clock type index val s).2.dev
            = rssPort.settled s.dev)) := by
  have hlook := rssPort.settled_tick clock s
  have hrsscr := rsscr_tick clock s
  unfold writeRssReg
  dsimp only
  generalize rssPort.tick clock s = s' at hlook hrsscr ⊢
  split
  · exact ⟨hrsscr, Or.inr ⟨rfl, hlook⟩⟩
  · next hidle =>
    have hbusy : rssPort.busy s'.dev = false := by
      rw [rssPort_busy]
      exact Bool.eq_false_iff.2 hidle
    refine ⟨(rsscr_wait clock 1000 _).trans hrsscr, Or.inl ?_⟩
    rw [rssPort.settled_wait]
    unfold Port.settled
    dsimp only
    rw [view_command, Table.finish_issue_write, rssPort.view_of_idle hbusy,
      hlook]
    rfl

-- ================================================================= the loops

/-- The address of a register of a type, below 256. -/
theorem rssEntry_ofNat (type : U32) {index : Nat} (h : index < 256) :
    rssEntry type (BitVec.ofNat 32 index)
      = (decide (Field.get type 0 1 = 1), index) := by
  unfold rssEntry
  have hsmall : (BitVec.ofNat 32 index).toNat = index := by
    rw [BitVec.toNat_ofNat]
    exact Nat.mod_eq_of_lt (by omega)
  have hindex : Field.get (BitVec.ofNat 32 index : U32) 0 8
      = BitVec.ofNat 32 index :=
    Field.get_zero_of_lt (by omega) (by omega)
  rw [hindex, hsmall]

/-- What a loop may have made of the tables: some of its entries have been
written. -/
def Mixed (b : Bool) (ws : List (Nat × U32))
    (t t' : Table (Bool × Nat) U32) : Prop :=
  ∀ a, t'.entry a = t.entry a
    ∨ ∃ w ∈ ws, a = (b, w.1) ∧ t'.entry a = w.2

theorem Mixed.refl (b : Bool) (ws : List (Nat × U32))
    (t : Table (Bool × Nat) U32) : Mixed b ws t t :=
  fun _ => Or.inl rfl

theorem mixed_written {b : Bool} {w : Nat × U32} {ws : List (Nat × U32)}
    (h : w ∈ ws) (t : Table (Bool × Nat) U32) :
    Mixed b ws t (written t (b, w.1) w.2) := by
  intro a
  rcases eq_or_ne a (b, w.1) with rfl | hne
  · exact Or.inr ⟨w, h, rfl, Function.update_self ..⟩
  · exact Or.inl (Function.update_of_ne hne _ _)

theorem Mixed.trans {b : Bool} {ws ws' : List (Nat × U32)}
    {t t' t'' : Table (Bool × Nat) U32} (h : Mixed b ws t t')
    (h' : Mixed b ws' t' t'') (hsub : ∀ w ∈ ws', w ∈ ws) :
    Mixed b ws t t'' := by
  intro a
  rcases h' a with hsame | ⟨w, hw, ha, hval⟩
  · rw [hsame]
    exact h a
  · exact Or.inr ⟨w, hsub w hw, ha, hval⟩

/-- However a loop ends, it has written some of its entries and nothing
else, and if it got to its end it has written all of them. -/
theorem writeRssRegs_spec (type : U32) {ws : List (Nat × U32)}
    (hsmall : ∀ w ∈ ws, w.1 < 256) (hnodup : (ws.map Prod.fst).Nodup)
    (s : RssHw) :
    let out := writeRssRegs clock type ws s
    let b := decide (Field.get type 0 1 = 1)
    out.2.dev.rsscr = s.dev.rsscr
      ∧ Mixed b ws (rssPort.settled s.dev) (rssPort.settled out.2.dev)
      ∧ (out.1 = 0 → ∀ w ∈ ws,
        (rssPort.settled out.2.dev).entry (b, w.1) = w.2) := by
  induction ws generalizing s with
  | nil => exact ⟨rfl, Mixed.refl _ _ _, fun _ w hw => absurd hw
      List.not_mem_nil⟩
  | cons w rest ih =>
    obtain ⟨hrsscr, hone⟩ :=
      writeRssReg_spec clock type (BitVec.ofNat 32 w.1) w.2 s
    rw [rssEntry_ofNat type (hsmall w List.mem_cons_self)] at hone
    have hmixed : Mixed (decide (Field.get type 0 1 = 1)) (w :: rest)
        (rssPort.settled s.dev) (rssPort.settled
          (writeRssReg clock type (BitVec.ofNat 32 w.1) w.2 s).2.dev) := by
      rcases hone with heq | ⟨-, heq⟩
      · rw [heq]
        exact mixed_written List.mem_cons_self _
      · rw [heq]
        exact Mixed.refl _ _ _
    rw [List.map_cons, List.nodup_cons] at hnodup
    have hrest := ih (fun w' hw' => hsmall w' (List.mem_cons_of_mem w hw'))
      hnodup.2
    unfold writeRssRegs
    generalize writeRssReg clock type (BitVec.ofNat 32 w.1) w.2 s = out
      at hrsscr hone hmixed ⊢
    obtain ⟨ret, s'⟩ := out
    dsimp only at hrsscr hone hmixed ⊢
    split
    · next heq =>
      injection heq with hret hs
      subst hret hs
      obtain ⟨hrsscr', hmixed', hall⟩ := hrest s'
      refine ⟨hrsscr'.trans hrsscr,
        hmixed.trans hmixed' fun w' => List.mem_cons_of_mem w, ?_⟩
      intro hzero w' hw'
      rcases List.mem_cons.1 hw' with rfl | hw'
      · rcases hmixed' (decide (Field.get type 0 1 = 1), w'.1) with
          hsame | ⟨w'', hw'', ha, -⟩
        · rcases hone with heq | ⟨hbusy, -⟩
          · rw [hsame, heq]
            exact Function.update_self ..
          · exact absurd hbusy (by decide)
        · -- its index does not come again
          refine absurd (List.mem_map.2 ⟨w'', hw'', ?_⟩) hnodup.1
          exact (congrArg Prod.snd ha).symm
      · exact hall hzero w' hw'
    · next ret' t hne heq =>
      injection heq with hret hs
      subst hret hs
      exact ⟨hrsscr, hmixed, fun hzero => (hne hzero).elim⟩

end Write

-- ============================================================ the driver's tables

/-- The NIC holds, or will with the write that is under way, the driver's
hash key, the last word in the first register, and its lookup table. -/
structure Rss.Programmed (p : Rss) : Prop where
  key : ∀ j val, p.rssKey[j]? = some val →
    (rssPort.settled p.hw.dev).entry (true, 9 - j) = val
  table : ∀ i val, p.rssTable[i]? = some val →
    (rssPort.settled p.hw.dev).entry (false, i) = val

/-- What `mac_write_rss_hash_key` writes. -/
def Rss.keyWrites (p : Rss) : List (Nat × U32) :=
  (List.range p.rssKey.length).reverse.zip p.rssKey

/-- What `mac_write_rss_lookup_table` writes. -/
def Rss.tableWrites (p : Rss) : List (Nat × U32) :=
  (List.range p.rssTable.length).zip p.rssTable

section Writes

variable (p : Rss)

theorem mem_keyWrites {w : Nat × U32} :
    w ∈ p.keyWrites ↔ ∃ j, p.rssKey[j]? = some w.2 ∧ w.1 = 9 - j := by
  unfold Rss.keyWrites
  rw [List.mem_iff_getElem?]
  refine exists_congr fun j => ?_
  rw [List.getElem?_zip_eq_some]
  constructor
  · rintro ⟨hindex, hval⟩
    have hj := (List.getElem?_eq_some_iff.1 hval).1
    rw [List.getElem?_reverse (by rw [List.length_range]; exact hj),
      List.length_range, List.getElem?_range (by omega)] at hindex
    rw [p.keyLength] at hindex
    exact ⟨hval, (Option.some.inj hindex).symm⟩
  · rintro ⟨hval, hindex⟩
    have hj := (List.getElem?_eq_some_iff.1 hval).1
    rw [List.getElem?_reverse (by rw [List.length_range]; exact hj),
      List.length_range, List.getElem?_range (by omega), p.keyLength,
      hindex]
    exact ⟨rfl, hval⟩

theorem mem_tableWrites {w : Nat × U32} :
    w ∈ p.tableWrites ↔ p.rssTable[w.1]? = some w.2 := by
  unfold Rss.tableWrites
  rw [List.mem_iff_getElem?]
  constructor
  · rintro ⟨i, hi⟩
    rw [List.getElem?_zip_eq_some] at hi
    have hlt := (List.getElem?_eq_some_iff.1 hi.2).1
    rw [List.getElem?_range hlt] at hi
    rw [← Option.some.inj hi.1]
    exact hi.2
  · intro hw
    refine ⟨w.1, ?_⟩
    have hlt := (List.getElem?_eq_some_iff.1 hw).1
    rw [List.getElem?_zip_eq_some, List.getElem?_range hlt]
    exact ⟨rfl, hw⟩

theorem keyWrites_nodup : (p.keyWrites.map Prod.fst).Nodup := by
  unfold Rss.keyWrites
  rw [List.map_fst_zip (by simp)]
  exact List.nodup_reverse.2 List.nodup_range

theorem tableWrites_nodup : (p.tableWrites.map Prod.fst).Nodup := by
  unfold Rss.tableWrites
  rw [List.map_fst_zip (by simp)]
  exact List.nodup_range

theorem keyWrites_small : ∀ w ∈ p.keyWrites, w.1 < 256 := by
  intro w hw
  obtain ⟨j, -, hindex⟩ := (mem_keyWrites p).1 hw
  omega

theorem tableWrites_small : ∀ w ∈ p.tableWrites, w.1 < 256 := by
  intro w hw
  have hlt := (List.getElem?_eq_some_iff.1 ((mem_tableWrites p).1 hw)).1
  rw [p.tableLength] at hlt
  exact hlt

end Writes

-- ================================================================= the calls

section Calls

variable {p p' : Rss}

/-- What stays the same over a call. -/
structure Rss.Same (p p' : Rss) : Prop where
  key : p'.rssKey = p.rssKey
  table : p'.rssTable = p.rssTable

/-- `Programmed` is about the driver's tables and the settled table. -/
theorem Rss.Programmed.congr (h : p.Programmed) (hsame : p.Same p')
    (hentry : (rssPort.settled p'.hw.dev).entry
      = (rssPort.settled p.hw.dev).entry) : p'.Programmed where
  key j val hj := by
    rw [hsame.key] at hj
    rw [hentry]
    exact h.key j val hj
  table i val hi := by
    rw [hsame.table] at hi
    rw [hentry]
    exact h.table i val hi

/-- The driver's tables, mixed with the hash key. -/
theorem Rss.Programmed.mixedKey (h : p.Programmed) (hsame : p.Same p')
    (hmixed : Mixed true p.keyWrites (rssPort.settled p.hw.dev)
      (rssPort.settled p'.hw.dev)) : p'.Programmed where
  key j val hj := by
    rw [hsame.key] at hj
    rcases hmixed (true, 9 - j) with heq | ⟨w, hw, ha, hval⟩
    · rw [heq]
      exact h.key j val hj
    · obtain ⟨j', hj', hindex⟩ := (mem_keyWrites p).1 hw
      have hlt := (List.getElem?_eq_some_iff.1 hj).1
      have hlt' := (List.getElem?_eq_some_iff.1 hj').1
      rw [p.keyLength] at hlt hlt'
      have hsnd := congrArg Prod.snd ha
      change 9 - j = w.1 at hsnd
      have hjj : j' = j := by omega
      rw [hjj, hj] at hj'
      rw [hval]
      exact (Option.some.inj hj').symm
  table i val hi := by
    rw [hsame.table] at hi
    rcases hmixed (false, i) with heq | ⟨w, -, ha, -⟩
    · rw [heq]
      exact h.table i val hi
    · exact Bool.noConfusion (congrArg Prod.fst ha)

/-- The driver's tables, mixed with the lookup table. -/
theorem Rss.Programmed.mixedTable (h : p.Programmed) (hsame : p.Same p')
    (hmixed : Mixed false p.tableWrites (rssPort.settled p.hw.dev)
      (rssPort.settled p'.hw.dev)) : p'.Programmed where
  key j val hj := by
    rw [hsame.key] at hj
    rcases hmixed (true, 9 - j) with heq | ⟨w, -, ha, -⟩
    · rw [heq]
      exact h.key j val hj
    · exact Bool.noConfusion (congrArg Prod.fst ha)
  table i val hi := by
    rw [hsame.table] at hi
    rcases hmixed (false, i) with heq | ⟨w, hw, ha, hval⟩
    · rw [heq]
      exact h.table i val hi
    · have hsnd := congrArg Prod.snd ha
      change i = w.1 at hsnd
      have hw' := (mem_tableWrites p).1 hw
      rw [← hsnd, hi] at hw'
      rw [hval]
      exact (Option.some.inj hw').symm

/-- Both loops have got to their ends. -/
theorem programmed_of_written (hsame : p.Same p')
    {t : Table (Bool × Nat) U32}
    (hkey : ∀ w ∈ p.keyWrites, t.entry (true, w.1) = w.2)
    (hmixed : Mixed false p.tableWrites t (rssPort.settled p'.hw.dev))
    (htable : ∀ w ∈ p.tableWrites,
      (rssPort.settled p'.hw.dev).entry (false, w.1) = w.2) :
    p'.Programmed where
  key j val hj := by
    rw [hsame.key] at hj
    rcases hmixed (true, 9 - j) with heq | ⟨w, -, ha, -⟩
    · rw [heq]
      exact hkey (9 - j, val) ((mem_keyWrites p).2 ⟨j, hj, rfl⟩)
    · exact Bool.noConfusion (congrArg Prod.fst ha)
  table i val hi := by
    rw [hsame.table] at hi
    exact htable (i, val) ((mem_tableWrites p).2 hi)

variable (clock : Nat → Bool)

/-- `mac_enable_rss` ends with the driver's tables in the NIC and the
scaling on, or with the scaling as it was; and if the tables were in the
NIC they still are. -/
theorem enableRss_spec (p : Rss) :
    p.Same (p.enableRss clock).2
      ∧ (p.Programmed → (p.enableRss clock).2.Programmed)
      ∧ ((p.enableRss clock).1 = 0 → (p.enableRss clock).2.Programmed)
      ∧ ((p.enableRss clock).1 ≠ 0 →
        (p.enableRss clock).2.rsse = p.rsse) := by
  obtain ⟨hrsscr, hmixed, hall⟩ := writeRssRegs_spec clock rssHashKeyType
    (keyWrites_small p) (keyWrites_nodup p) p.hw
  change Mixed true p.keyWrites _ _ at hmixed
  unfold Rss.enableRss writeRssHashKey writeRssLookupTable
  split
  · have hfails : (-EOPNOTSUPP : Int) ≠ 0 := by decide
    exact ⟨⟨rfl, rfl⟩, fun h => h, fun hzero => absurd hzero hfails,
      fun _ => rfl⟩
  · change _ → ∀ w ∈ p.keyWrites, Table.entry _ (true, w.1) = w.2 at hall
    generalize hout : writeRssRegs clock rssHashKeyType _ p.hw = out
    change writeRssRegs clock rssHashKeyType p.keyWrites p.hw = out at hout
    rw [hout] at hrsscr hmixed hall
    obtain ⟨ret, hw⟩ := out
    dsimp only at hrsscr hmixed hall ⊢
    split
    · next heq =>
      injection heq with hret hhw
      subst hret hhw
      obtain ⟨hrsscr', hmixed', hall'⟩ :=
        writeRssRegs_spec clock rssLookupTableType (tableWrites_small p)
          (tableWrites_nodup p) hw
      change Mixed false p.tableWrites _ _ at hmixed'
      change _ → ∀ w ∈ p.tableWrites, Table.entry _ (false, w.1) = w.2
        at hall'
      generalize hout' : writeRssRegs clock rssLookupTableType _ hw = out'
      change writeRssRegs clock rssLookupTableType p.tableWrites hw = out'
        at hout'
      rw [hout'] at hrsscr' hmixed' hall'
      obtain ⟨ret', hw'⟩ := out'
      dsimp only at hrsscr' hmixed' hall' ⊢
      have hmiddle : p.Programmed →
          Rss.Programmed { p with hw := hw } := fun h =>
        h.mixedKey ⟨rfl, rfl⟩ hmixed
      have hboth : p.Programmed →
          Rss.Programmed { p with hw := hw' } := fun h =>
        (hmiddle h).mixedTable ⟨rfl, rfl⟩ hmixed'
      split
      · next heq' =>
        injection heq' with hret' hhw'
        subst hret' hhw'
        have hdone : Rss.Programmed { p with hw := hw' } :=
          programmed_of_written (p := p) ⟨rfl, rfl⟩ (hall rfl) hmixed'
            (hall' rfl)
        exact ⟨⟨rfl, rfl⟩, fun _ => hdone.congr ⟨rfl, rfl⟩ rfl,
          fun _ => hdone.congr ⟨rfl, rfl⟩ rfl, fun hne => absurd rfl hne⟩
      · next r t hne heq' =>
        injection heq' with hret' hhw'
        subst hret' hhw'
        refine ⟨⟨rfl, rfl⟩, hboth, fun hzero => (hne hzero).elim,
          fun _ => ?_⟩
        unfold Rss.rsse
        dsimp only
        rw [hrsscr', hrsscr]
    · next r t hne heq =>
      injection heq with hret hhw
      subst hret hhw
      refine ⟨⟨rfl, rfl⟩, fun h => h.mixedKey ⟨rfl, rfl⟩ hmixed,
        fun hzero => (hne hzero).elim, fun _ => ?_⟩
      unfold Rss.rsse
      dsimp only
      rw [hrsscr]

/-- `mac_disable_rss` leaves the tables alone and never turns the scaling
on. -/
theorem disableRss_spec (p : Rss) :
    p.Same p.disableRss.2
      ∧ (p.Programmed → p.disableRss.2.Programmed)
      ∧ (p.disableRss.2.rsse = true → p.rsse = true) := by
  unfold Rss.disableRss
  split
  · exact ⟨⟨rfl, rfl⟩, fun h => h, fun h => h⟩
  · refine ⟨⟨rfl, rfl⟩, fun h => h.congr ⟨rfl, rfl⟩ rfl, fun hon => ?_⟩
    unfold Rss.rsse Rss.setRsscr at hon
    dsimp only at hon
    rw [Field.get_set (by omega)] at hon
    exact absurd hon (by decide)

/-- The scaling is only on with the driver's tables in the NIC. -/
def Rss.Sound (p : Rss) : Prop := p.rsse = true → p.Programmed

theorem Rss.Sound.enable (h : p.Sound) : (p.enableRss clock).2.Sound := by
  obtain ⟨-, hkeeps, hdone, hsame⟩ := enableRss_spec clock p
  intro hon
  by_cases hzero : (p.enableRss clock).1 = 0
  · exact hdone hzero
  · rw [hsame hzero] at hon
    exact hkeeps (h hon)

theorem Rss.Sound.disable (h : p.Sound) : p.disableRss.2.Sound := by
  obtain ⟨-, hkeeps, hoff⟩ := disableRss_spec p
  exact fun hon => hkeeps (h (hoff hon))

theorem Rss.Sound.step (h : p.Sound) (act : RssAct) :
    (p.step clock act).Sound := by
  cases act with
  | reset entry =>
    intro hon
    have hreset : ¬ decide (Field.get (0 : U32) 0 1 = 1) = true := by decide
    exact absurd hon hreset
  | configRss =>
    show (p.configRss clock).Sound
    unfold Rss.configRss
    split
    · exact h
    · split
      · exact h.enable clock
      · exact h.disable
  | setFeatures rxhash =>
    have hcall : (if rxhash && !p.netdevFeatures then p.enableRss clock
        else if !rxhash && p.netdevFeatures then p.disableRss
        else (0, p)).2.Sound := by
      split
      · exact h.enable clock
      · split
        · exact h.disable
        · exact h
    show (p.setFeatures clock rxhash).Sound
    unfold Rss.setFeatures
    dsimp only
    generalize (if (rxhash && !p.netdevFeatures) = true then
      p.enableRss clock else if (!rxhash && p.netdevFeatures) = true then
      p.disableRss else (0, p)) = out at hcall ⊢
    split
    · exact fun hon => (hcall hon).congr ⟨rfl, rfl⟩ rfl
    · exact hcall

end Calls

/-- Through starts, changes of features and failures, whatever the NIC
takes for its commands: whenever the scaling is on, the NIC has the
driver's hash key and lookup table, or will when it is done with the
write that is under way. -/
theorem rss_on_programmed (clock : Nat → Bool) {p : Rss}
    (hoff : p.rsse = false) (acts : List RssAct) :
    Run.Always (Rss.step clock) (fun p => p.rsse = true → p.Programmed) p
      acts := by
  have hstart : p.Sound := fun hon => by
    rw [hoff] at hon
    exact Bool.noConfusion hon
  exact Run.Each.always (I := Rss.Sound) (Q := fun _ _ => True)
    (fun p act h _ => h.step clock act) hstart
    (Run.each_of_forall_mem (fun _ _ => trivial) p)

/-- After a reset: the NIC's tables are zeros, the driver has a key and
deals the frames out to four receive rings. -/
def Rss.afterReset : Rss where
  hw := ⟨⟨0, 0, 0, fun _ => 0⟩, 0⟩
  hwFeatRss := true
  rssKey := (List.range 10).map fun i => 0x6d5a56da + BitVec.ofNat 32 i
  rssTable := (List.range 256).map fun i => BitVec.ofNat 32 (i % 4)
  rssOptions := 0xe
  netdevFeatures := true
  features := true
  keyLength := by rw [List.length_map, List.length_range]
  tableLength := by rw [List.length_map, List.length_range]

theorem rss_on_programmed_afterReset :
    Run.Always (Rss.step fun _ => true)
      (fun p => p.rsse = true → p.Programmed) .afterReset
      [.configRss, .setFeatures false, .setFeatures true] :=
  rss_on_programmed _ (by decide) _

-- ================================================================ success

section Success

variable {clock : Nat → Bool}

/-- A write to an idle NIC that keeps up succeeds and leaves it idle. -/
theorem writeRssReg_succeeds (hclock : KeepsUp clock 1000)
    (type index val : U32) {s : RssHw} (hidle : s.dev.ob = false) :
    (writeRssReg clock type index val s).1 = 0
      ∧ (writeRssReg clock type index val s).2.dev.ob = false := by
  have hbusy : rssPort.busy s.dev = false := by
    rw [rssPort_busy]
    exact hidle
  have hlook := (rssPort.tick_of_idle clock hbusy).1
  rw [rssPort_busy] at hlook
  unfold writeRssReg
  dsimp only
  generalize rssPort.tick clock s = s' at hlook ⊢
  rw [if_neg (Bool.eq_false_iff.1 hlook)]
  generalize (⟨RssRegs.mk s'.dev.rsscr _ val s'.dev.entry, s'.now⟩
    : RssHw) = cmd
  have hwait := rssPort.wait_of_keepsUp hclock cmd
  have hends : rssPort.wait clock 1000 cmd
      = (true, (rssPort.wait clock 1000 cmd).2) := by rw [← hwait]
  have hdone := rssPort.idle_of_wait clock hends
  rw [rssPort_busy] at hdone
  rw [hwait]
  exact ⟨rfl, hdone⟩

theorem writeRssRegs_succeeds (hclock : KeepsUp clock 1000) (type : U32)
    (ws : List (Nat × U32)) {s : RssHw} (hidle : s.dev.ob = false) :
    (writeRssRegs clock type ws s).1 = 0
      ∧ (writeRssRegs clock type ws s).2.dev.ob = false := by
  induction ws generalizing s with
  | nil => exact ⟨rfl, hidle⟩
  | cons w rest ih =>
    have hone := writeRssReg_succeeds hclock type (BitVec.ofNat 32 w.1)
      w.2 hidle
    unfold writeRssRegs
    generalize writeRssReg clock type (BitVec.ofNat 32 w.1) w.2 s = out
      at hone ⊢
    obtain ⟨ret, s'⟩ := out
    obtain ⟨hret, hidle'⟩ := hone
    change ret = 0 at hret
    subst hret
    exact ih hidle'

/-- Both loops succeed. -/
theorem enableRss_of_written {p : Rss} {hw hw' : RssHw}
    (hrss : p.hwFeatRss = true)
    (hkey : writeRssHashKey clock p.rssKey p.hw = (0, hw))
    (htable : writeRssLookupTable clock p.rssTable hw = (0, hw')) :
    p.enableRss clock = (0, Rss.setRsscr { p with hw := hw' }
      (Field.set p.rssOptions 0 1 1)) := by
  unfold Rss.enableRss
  simp [hrss, hkey, htable]

/-- With a NIC that has the scaling, is idle and keeps up,
`mac_enable_rss` succeeds: the scaling is on, the NIC is idle again, and
it has the driver's tables. -/
theorem enableRss_succeeds (hclock : KeepsUp clock 1000) {p : Rss}
    (hrss : p.hwFeatRss = true) (hidle : p.hw.dev.ob = false) :
    (p.enableRss clock).1 = 0 ∧ (p.enableRss clock).2.rsse = true
      ∧ (p.enableRss clock).2.hw.dev.ob = false
      ∧ (p.enableRss clock).2.Programmed := by
  obtain ⟨hret, hidle'⟩ := writeRssRegs_succeeds hclock rssHashKeyType
    ((List.range p.rssKey.length).reverse.zip p.rssKey) hidle
  obtain ⟨hret', hidle''⟩ := writeRssRegs_succeeds hclock rssLookupTableType
    ((List.range p.rssTable.length).zip p.rssTable) hidle'
  have hdone := enableRss_of_written hrss (Prod.ext hret rfl)
    (Prod.ext hret' rfl)
  have hzero : (p.enableRss clock).1 = 0 := by rw [hdone]
  refine ⟨hzero, ?_, ?_, (enableRss_spec clock p).2.2.1 hzero⟩
  · rw [hdone]
    show decide (Field.get (Field.set p.rssOptions 0 1 1) 0 1 = 1) = true
    rw [Field.get_set (by omega)]
    decide
  · rw [hdone]
    exact hidle''

/-- The NIC is done with a command at the next look. -/
theorem enableRss_succeeds_afterReset :
    (Rss.afterReset.enableRss fun _ => true).1 = 0
      ∧ (Rss.afterReset.enableRss fun _ => true).2.rsse = true
      ∧ (Rss.afterReset.enableRss fun _ => true).2.hw.dev.ob = false
      ∧ (Rss.afterReset.enableRss fun _ => true).2.Programmed :=
  enableRss_succeeds (fun _ => ⟨0, by omega, rfl⟩) rfl (by decide)

end Success

end BxRnic.Mac
