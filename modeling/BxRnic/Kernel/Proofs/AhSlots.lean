/-
Who owns the entries of the table of address handles.

The allocator's marks are in the entries themselves: an entry is taken
while its word `valid` is not zero, and `set_av_attr` writes that word,
too. What a creation does to the marks is said once
(`createAh_cases`). It leaves them as they were unless it takes an entry
and keeps it; and it keeps it in two cases, for the handle it returns,
and for a handle it never returns, since the answer to user space is
copied from an address that is none.
-/
import BxRnic.Kernel.Proofs.Ah
import BxRnic.Lib.Registered
import BxRnic.Lib.Run

namespace BxRnic.Kernel

open Run

-- ================================================================ a creation

section Create

variable {tbl : AvTbl} {c : CreateAh}

/-- An entry is taken. -/
def AvTbl.Marked (tbl : AvTbl) (i : Nat) : Prop :=
  avGetValid (tbl.va i) ≠ 0

/-- The call gets as far as the table. -/
def CreateAh.Admitted (c : CreateAh) : Prop :=
  (c.attr.roce = true → c.attr.grhFlag = true) ∧ c.memory = true

/-- The tag that goes into the header. -/
def CreateAh.vlanTag (c : CreateAh) : U16 :=
  c.attr.sgidAttr.vlanId.getD 0xffff

/-- `set_av_attr` takes the attributes. -/
def CreateAh.Accepted (c : CreateAh) : Prop :=
  hdrTypeToProtoNum c.attr.sgidAttr.networkType ≠ 0
    ∧ c.vlanTag ≠ 0 ∧ c.vlanTag ≤ 0xfff

theorem marked_set {i : Nat} {av : Mem} (j : Nat) :
    (tbl.set i av).Marked j
      ↔ if j = i then avGetValid av ≠ 0 else tbl.Marked j := by
  unfold AvTbl.Marked
  by_cases heq : j = i
  · rw [if_pos heq, heq, tbl.set_va]
  · rw [if_neg heq, tbl.set_va_other av heq]

/-- An entry that is taken is one that was not. -/
theorem free_eq_some {i : Nat} (h : tbl.free = some i) :
    i < tbl.numAh ∧ ¬ tbl.Marked i := by
  obtain ⟨hfree, hmem, -⟩ := List.find?_range_eq_some.1 h
  exact ⟨List.mem_range.1 hmem, not_not_intro (of_decide_eq_true hfree)⟩

theorem free_eq_none_iff :
    tbl.free = none ↔ ∀ i, i < tbl.numAh → tbl.Marked i := by
  unfold AvTbl.free AvTbl.Marked
  rw [List.find?_range_eq_none]
  refine forall₂_congr fun i _ => ?_
  rw [Bool.not_eq_true', decide_eq_false_iff_not]

/-- What becomes of the marks, and what the caller gets. -/
inductive CreateCase (tbl : AvTbl) (c : CreateAh) :
    Created × AvTbl → Prop
  | early {status : Int} (h : ¬ c.Admitted) (hne : status ≠ -EAGAIN) :
      CreateCase tbl c (.err status, tbl)
  | full (h : c.Admitted) (hfree : tbl.free = none) :
      CreateCase tbl c (.err (-EAGAIN), tbl)
  | refused {i : Nat} {av : Mem} (h : c.Admitted)
      (hfree : tbl.free = some i) (hbad : ¬ c.Accepted)
      (hclear : avGetValid av = 0) :
      CreateCase tbl c (.err (-EINVAL), tbl.set i av)
  | faults {i : Nat} {av : Mem} (h : c.Admitted)
      (hfree : tbl.free = some i) (hgood : c.Accepted)
      (hudata : c.udata = true) (hset : avGetValid av ≠ 0) :
      CreateCase tbl c (.oops, tbl.set i av)
  | made {i : Nat} {ah : Ah} {av : Mem} (h : c.Admitted)
      (hfree : tbl.free = some i) (hgood : c.Accepted)
      (hudata : c.udata = false) (hav : ah.av = i)
      (hset : avGetValid av ≠ 0) :
      CreateCase tbl c (.ok ah, tbl.set i av)

/-- `set_av_attr` refuses, or keeps the entry marked. -/
theorem setAvAttr_cases (env : AvEnv) (attr : AhAttr) (vlanTag : U16)
    (ah : Ah) {av : Mem} (hvalid : avGetValid av = avValid) :
    ((hdrTypeToProtoNum ah.hdrType ≠ 0 ∧ vlanTag ≠ 0 ∧ vlanTag ≤ 0xfff)
      ∧ ∃ ah' av', setAvAttr env attr vlanTag ah av = (0, ah', av')
        ∧ ah'.av = ah.av ∧ avGetValid av' ≠ 0)
    ∨ (¬ (hdrTypeToProtoNum ah.hdrType ≠ 0 ∧ vlanTag ≠ 0
        ∧ vlanTag ≤ 0xfff)
      ∧ setAvAttr env attr vlanTag ah av = (-EINVAL, ah, av)) := by
  cases hset : setAvAttr env attr vlanTag ah av with
  | mk status out =>
    obtain ⟨ah', av'⟩ := out
    have hdef := hset
    unfold setAvAttr at hdef
    by_cases hproto : hdrTypeToProtoNum ah.hdrType = 0
    · rw [if_pos hproto] at hdef
      exact Or.inr ⟨fun hall => hall.1 hproto, hdef.symm⟩
    rw [if_neg hproto] at hdef
    dsimp only at hdef
    by_cases htag : vlanTag = 0 ∨ vlanTag > 0xfff
    · rw [if_pos htag] at hdef
      refine Or.inr ⟨fun hall => ?_, hdef.symm⟩
      rcases htag with hzero | hbig
      · exact hall.2.1 hzero
      · exact absurd hall.2.2 (BitVec.not_le.2 hbig)
    · rw [if_neg htag] at hdef
      obtain ⟨hstatus, -⟩ := Prod.mk.inj hdef
      subst hstatus
      obtain ⟨hav, hpacked⟩ := setAvAttr_ok hset hvalid
      obtain ⟨hzero, hbig⟩ := not_or.1 htag
      refine Or.inl ⟨⟨hproto, hzero, BitVec.not_lt.1 hbig⟩, ah', av', rfl,
        hav, ?_⟩
      rw [hpacked.valid]
      decide

theorem createAh_cases (tbl : AvTbl) (c : CreateAh) :
    CreateCase tbl c (createAh tbl c) := by
  unfold createAh
  by_cases hflag : c.attr.roce = true ∧ (!c.attr.grhFlag) = true
  · rw [if_pos hflag]
    refine .early (fun h => ?_) (by decide)
    have hgrh := h.1 hflag.1
    rw [hgrh] at hflag
    exact Bool.false_ne_true hflag.2
  rw [if_neg hflag]
  by_cases hmem : (!c.memory) = true
  · rw [if_pos hmem]
    refine .early (fun h => ?_) (by decide)
    rw [h.2] at hmem
    exact Bool.false_ne_true hmem
  rw [if_neg hmem]
  have hadmitted : c.Admitted := by
    refine ⟨fun hroce => ?_, ?_⟩
    · by_contra hgrh
      rw [Bool.not_eq_true] at hgrh
      exact hflag ⟨hroce, by rw [hgrh]; rfl⟩
    · by_contra hnone
      rw [Bool.not_eq_true] at hnone
      exact hmem (by rw [hnone]; rfl)
  cases hfree : tbl.free with
  | none => exact .full hadmitted hfree
  | some i =>
    dsimp only
    rcases setAvAttr_cases c.env c.attr c.vlanTag
      ⟨i, 0, c.attr.sgidAttr.networkType⟩
      (avGetValid_avSetValid (tbl.va i) avValid) with
      ⟨hgood, ah, av, hset, hav, hvalid⟩ | ⟨hbad, hset⟩
    · rw [CreateAh.vlanTag] at hset
      rw [hset]
      dsimp only
      rw [if_neg (not_not_intro rfl)]
      cases hudata : c.udata with
      | true => exact .faults hadmitted hfree hgood hudata hvalid
      | false => exact .made hadmitted hfree hgood hudata hav hvalid
    · rw [CreateAh.vlanTag] at hset
      rw [hset]
      dsimp only
      rw [if_pos (by decide)]
      exact .refused hadmitted hfree hbad (avGetValid_avSetValid _ _)

end Create

-- ================================================================= a device

section Device

variable {dev : AhDev} {c : CreateAh}

/-- Each handle has an entry of its own, and the entries taken are those
of the handles. -/
structure AhDev.Owned (dev : AhDev) : Prop where
  entries : Registered (fun obj : AhObj => obj.ah.av) 0 dev.tbl.numAh
    dev.tbl.Marked dev.ahs
  inside : ∀ obj ∈ dev.ahs, obj.ah.av < dev.tbl.numAh

/-- Every entry belongs to a handle. -/
def AhDev.AllOwned (dev : AhDev) : Prop :=
  ∀ i, i < dev.tbl.numAh → ∃ obj ∈ dev.ahs, obj.ah.av = i

/-- A call of `bxroce_create_ah` that gives out no handle. -/
def CreateAh.Fails (c : CreateAh) (tbl : AvTbl) : Prop :=
  ∀ ah, (createAh tbl c).1 ≠ .ok ah

/-- A call on a device as it should be. -/
structure AhDev.Right (dev : AhDev) (call : AhDevCall) : Prop where
  owned : (dev.step call).Owned
  again : ∀ c, call = .create c →
    ((createAh dev.tbl c).1 = .err (-EAGAIN)
      ↔ c.Admitted ∧ dev.AllOwned)
  failed : ∀ c, call = .create c → c.Fails dev.tbl →
    ∀ i, (dev.step call).tbl.Marked i ↔ dev.tbl.Marked i
  destroyed : ∀ obj ∈ dev.ahs, call = .destroy obj.addr →
    ¬ (dev.step call).tbl.Marked obj.ah.av

/-- A creation for user space does not get to its answer. -/
def AhDev.Harmless (dev : AhDev) : AhDevCall → Prop
  | .create c => c.udata = true → c.Admitted → c.Accepted →
      ∀ i, i < dev.tbl.numAh → dev.tbl.Marked i
  | .destroy _ => True

/-- The entries are owned, and the handles are where they are. -/
structure AhDev.Inv (dev : AhDev) : Prop where
  owned : dev.Owned
  placed : Placed (·.addr) dev.fresh dev.ahs

/-- All entries are owned when none is free. -/
theorem AhDev.Owned.allOwned_iff (h : dev.Owned) :
    dev.AllOwned ↔ dev.tbl.free = none := by
  rw [free_eq_none_iff]
  exact forall₂_congr fun i hi =>
    (h.entries.marked_iff i (Nat.zero_le i) hi).symm

/-- The marks decide; the bytes of an entry do not. -/
theorem AhDev.Owned.congr {tbl : AvTbl} (h : dev.Owned)
    (hmarks : ∀ i, tbl.Marked i ↔ dev.tbl.Marked i)
    (hnum : tbl.numAh = dev.tbl.numAh) :
    AhDev.Owned { dev with tbl := tbl } := by
  refine ⟨?_, ?_⟩
  · dsimp only
    rw [hnum]
    exact h.entries.congr fun i _ _ => hmarks i
  · dsimp only
    rw [hnum]
    exact h.inside

/-- An entry that stays marked without a handle is owned by none. -/
theorem AhDev.Owned.not_leaked {i : Nat} {av : Mem} (h : dev.Owned)
    (hfree : dev.tbl.free = some i) (hset : avGetValid av ≠ 0) :
    ¬ AhDev.Owned { dev with tbl := dev.tbl.set i av } := by
  intro howned
  obtain ⟨hi, hclear⟩ := free_eq_some hfree
  have hmarked : (dev.tbl.set i av).Marked i := by
    rw [marked_set, if_pos rfl]
    exact hset
  obtain ⟨obj, hobj, hav⟩ :=
    (howned.entries.marked_iff i (Nat.zero_le i) hi).1 hmarked
  exact hclear ((h.entries.marked_iff i (Nat.zero_le i) hi).2
    ⟨obj, hobj, hav⟩)

/-- A new handle owns the entry it was given. -/
theorem AhDev.Inv.made {i : Nat} {ah : Ah} {av : Mem} (h : dev.Inv)
    (hfree : dev.tbl.free = some i) (hav : ah.av = i)
    (hset : avGetValid av ≠ 0) :
    AhDev.Inv ⟨dev.tbl.set i av, ⟨dev.fresh, ah⟩ :: dev.ahs,
      dev.fresh + 1⟩ := by
  obtain ⟨hi, hclear⟩ := free_eq_some hfree
  subst hav
  refine ⟨⟨?_, ?_⟩, h.placed.cons rfl⟩
  · refine h.owned.entries.cons (fun obj hobj hsame => ?_)
      fun j _ _ => ?_
    · exact hclear ((h.owned.entries.marked_iff _ (Nat.zero_le _) hi).2
        ⟨obj, hobj, hsame⟩)
    · rw [marked_set]
      by_cases heq : j = ah.av
      · rw [if_pos heq]
        exact iff_of_true hset (Or.inl heq)
      · rw [if_neg heq]
        exact ⟨Or.inr, fun hor => hor.resolve_left heq⟩
  · rintro obj hobj
    rcases List.mem_cons.1 hobj with rfl | hold
    · exact hi
    · exact h.owned.inside obj hold

/-- A handle that is destroyed takes its mark with it. -/
theorem AhDev.Inv.destroyed {obj : AhObj} (h : dev.Inv)
    (hobj : obj ∈ dev.ahs) :
    AhDev.Inv
      { dev with
        tbl := destroyAh dev.tbl obj.ah
        ahs := dev.ahs.filter fun obj' => obj'.addr ≠ obj.addr } := by
  refine ⟨⟨?_, ?_⟩, h.placed.filter _⟩
  · refine h.owned.entries.erase h.placed hobj fun i _ _ => ?_
    rw [destroyAh, marked_set, avGetValid_avSetValid]
    by_cases heq : i = obj.ah.av
    · rw [if_pos heq]
      exact iff_of_false (fun hne => hne rfl) fun hboth => hboth.1 heq
    · rw [if_neg heq]
      exact ⟨fun hmarked => ⟨heq, hmarked⟩, fun hboth => hboth.2⟩
  · intro obj' hobj'
    exact h.owned.inside obj' (List.mem_of_mem_filter hobj')

/-- An entry that is given back is marked as before. -/
theorem marked_refused {i : Nat} {av : Mem} (hfree : dev.tbl.free = some i)
    (hclear : avGetValid av = 0) (j : Nat) :
    (dev.tbl.set i av).Marked j ↔ dev.tbl.Marked j := by
  rw [marked_set]
  by_cases heq : j = i
  · rw [if_pos heq, heq]
    exact iff_of_false (not_not_intro hclear) (free_eq_some hfree).2
  · rw [if_neg heq]

theorem right_create_iff :
    dev.Right (.create c)
      ↔ (dev.step (.create c)).Owned
        ∧ ((createAh dev.tbl c).1 = .err (-EAGAIN)
          ↔ c.Admitted ∧ dev.AllOwned)
        ∧ (c.Fails dev.tbl →
          ∀ i, (dev.step (.create c)).tbl.Marked i
            ↔ dev.tbl.Marked i) := by
  constructor
  · exact fun h => ⟨h.owned, h.again c rfl, h.failed c rfl⟩
  · rintro ⟨howned, hagain, hfailed⟩
    refine ⟨howned, fun c' heq => ?_, fun c' heq => ?_, fun obj _ heq => ?_⟩
    · cases heq
      exact hagain
    · cases heq
      exact hfailed
    · cases heq

/-- A creation is as it should be exactly if it is harmless. -/
theorem create_right_iff (h : dev.Inv) :
    (dev.Right (.create c) ↔ dev.Harmless (.create c))
      ∧ (dev.Harmless (.create c) → (dev.step (.create c)).Inv) := by
  have hnotAll : ∀ {i}, dev.tbl.free = some i → ¬ dev.AllOwned := by
    intro i hfree hall
    rw [h.owned.allOwned_iff.1 hall] at hfree
    cases hfree
  have hcase := createAh_cases dev.tbl c
  rw [right_create_iff]
  unfold AhDev.step CreateAh.Fails
  dsimp only
  generalize createAh dev.tbl c = out at hcase
  cases hcase with
  | early hnot hne =>
    refine ⟨iff_of_true ⟨h.owned, ?_, fun _ _ => Iff.rfl⟩ ?_, fun _ => h⟩
    · refine iff_of_false (fun heq => ?_) fun hboth => hnot hboth.1
      cases heq
      exact hne rfl
    · exact fun _ hadmitted => absurd hadmitted hnot
  | full hadmitted hfree =>
    refine ⟨iff_of_true ⟨h.owned, ?_, fun _ _ => Iff.rfl⟩ ?_, fun _ => h⟩
    · exact iff_of_true rfl ⟨hadmitted, h.owned.allOwned_iff.2 hfree⟩
    · exact fun _ _ _ => free_eq_none_iff.1 hfree
  | refused hadmitted hfree hbad hclear =>
    have hmarks := marked_refused hfree hclear
    have howned := h.owned.congr hmarks rfl
    refine ⟨iff_of_true ⟨howned, ?_, fun _ => hmarks⟩ ?_,
      fun _ => ⟨howned, h.placed⟩⟩
    · refine iff_of_false (fun heq => ?_) fun hboth =>
        hnotAll hfree hboth.2
      exact absurd (Created.err.inj heq) (by decide)
    · exact fun _ _ hgood => absurd hgood hbad
  | faults hadmitted hfree hgood hudata hset =>
    have hnot : ¬ dev.Harmless (.create c) := by
      intro hharmless
      obtain ⟨hi, hclear⟩ := free_eq_some hfree
      exact hclear (hharmless hudata hadmitted hgood _ hi)
    refine ⟨iff_of_false (fun hright => ?_) hnot, fun hharmless =>
      absurd hharmless hnot⟩
    exact h.owned.not_leaked hfree hset hright.1
  | made hadmitted hfree hgood hudata hav hset =>
    have hinv := h.made hfree hav hset
    refine ⟨iff_of_true ⟨hinv.owned, ?_, ?_⟩ ?_, fun _ => hinv⟩
    · exact iff_of_false Created.noConfusion fun hboth =>
        hnotAll hfree hboth.2
    · exact fun hfails => absurd rfl (hfails _)
    · intro htrue
      rw [hudata] at htrue
      cases htrue

/-- A destruction always is. -/
theorem destroy_right (h : dev.Inv) (addr : Nat) :
    dev.Right (.destroy addr) ∧ (dev.step (.destroy addr)).Inv := by
  have hinv : (dev.step (.destroy addr)).Inv
      ∧ ∀ obj ∈ dev.ahs, addr = obj.addr →
        ¬ (dev.step (.destroy addr)).tbl.Marked obj.ah.av := by
    rw [AhDev.step]
    cases hfind : dev.ahs.find? fun obj => obj.addr = addr with
    | none =>
      refine ⟨h, fun obj hobj heq => ?_⟩
      exact absurd (decide_eq_true heq.symm)
        (List.find?_eq_none.1 hfind obj hobj)
    | some obj =>
      have hobj := List.mem_of_find?_eq_some hfind
      obtain rfl : obj.addr = addr := by
        simpa using List.find?_some hfind
      refine ⟨h.destroyed hobj, fun obj' hobj' heq => ?_⟩
      obtain rfl := h.placed.eq_of_addr hobj hobj' heq
      dsimp only
      rw [destroyAh, marked_set, if_pos rfl, avGetValid_avSetValid]
      exact not_not_intro rfl
  refine ⟨⟨hinv.1.owned, fun c heq => ?_, fun c heq => ?_,
    fun obj hobj heq => ?_⟩, hinv.1⟩
  · cases heq
  · cases heq
  · exact hinv.2 obj hobj (AhDevCall.destroy.inj heq)

theorem AhDev.init_inv (numAh : Nat) : (AhDev.init numAh).Inv := by
  have hzero : avGetValid (fun _ => 0) = 0 := by
    decide
  refine ⟨⟨⟨List.nodup_nil, fun i _ _ => ?_⟩, ?_⟩, List.nodup_nil, ?_⟩
  · refine iff_of_false (fun hmarked => hmarked hzero) ?_
    rintro ⟨obj, hobj, -⟩
    exact absurd hobj List.not_mem_nil
  · exact fun obj hobj => absurd hobj List.not_mem_nil
  · exact fun obj hobj => absurd hobj List.not_mem_nil

/-- Exactly which runs keep the entries with their handles. -/
theorem slots_owned_iff (numAh : Nat) (calls : List AhDevCall) :
    Each AhDev.step AhDev.Right (AhDev.init numAh) calls
      ↔ Each AhDev.step AhDev.Harmless (AhDev.init numAh) calls := by
  have hstep : ∀ (dev : AhDev) (call : AhDevCall), dev.Inv →
      (dev.Right call ↔ dev.Harmless call)
        ∧ (dev.Harmless call → (dev.step call).Inv) := by
    intro dev call hinv
    cases call with
    | create c => exact create_right_iff hinv
    | destroy addr =>
      obtain ⟨hright, hnext⟩ := destroy_right hinv addr
      exact ⟨iff_of_true hright trivial, fun _ => hnext⟩
  refine each_iff_each_of_inv (fun dev call hinv => (hstep dev call hinv).1)
    (fun dev call hinv hright => ?_) (AhDev.init_inv numAh)
  obtain ⟨hiff, hnext⟩ := hstep dev call hinv
  exact hnext (hiff.1 hright)

/-- A call from user space takes the only entry, and gives out no handle:
the next call finds none. -/
theorem user_ah_leaks_entry :
    let user := { createWith 0 1 with udata := true }
    let dev := (AhDev.init 1).step (.create user)
    ¬ Each AhDev.step AhDev.Right (AhDev.init 1) [.create user]
      ∧ dev.ahs = []
      ∧ (createAh dev.tbl (createWith 0 1)).1 = .err (-EAGAIN) := by
  intro user dev
  refine ⟨fun heach => ?_, rfl, ?_⟩
  · have hmarked : dev.tbl.Marked 0 := by
      unfold AvTbl.Marked
      decide +kernel
    obtain ⟨obj, hobj, -⟩ :=
      (heach.1.owned.entries.marked_iff 0 (Nat.le_refl 0) Nat.one_pos).1
        hmarked
    exact absurd hobj List.not_mem_nil
  · have hnone : dev.tbl.free = none := by
      decide +kernel
    unfold createAh
    rw [hnone]
    rfl

end Device

end BxRnic.Kernel
