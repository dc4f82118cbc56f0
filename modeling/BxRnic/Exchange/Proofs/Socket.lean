/-
The server handles what its clients send, request by request, exactly if
every `read` returns a whole one: `served_exactly` says so of the state
any run ends in. A short read is never made up for, since the thread
handles a request for every `read`, and no later one takes more than one
request's bytes (`Behind`).

What is sent as requests arrives as these (`requests_arrive`), and the
1024 clients the server waits for cannot overrun the pool
(`clients_limited`).
-/
import BxRnic.Exchange.Socket
import Mathlib.Algebra.Order.BigOperators.Group.Finset

namespace BxRnic.Exchange

open Run Records

-- ============================================================= the format

/-- Only the bytes of a request are looked at. -/
theorem load_congr {m m' : Mem} (h : ∀ k < sizeofQpVaddr, m k = m' k) :
    QpVaddr.load m = QpVaddr.load m' := by
  unfold sizeofQpVaddr at h
  simp only [QpVaddr.load, loadLe64, Mem.loadLe32]
  simp [h]

/-- A whole request leaves nothing of the buffer. -/
theorem load_store {bs : List U8} (h : bs.length = sizeofQpVaddr)
    (m : Mem) : QpVaddr.load (m.store 0 bs) = .ofBytes bs := by
  apply load_congr
  intro k hk
  have hk' : k < bs.length := by
    rw [h]
    exact hk
  have hget (m : Mem) : m.store 0 bs k = bs.getD k 0 := by
    have hstore : m.store 0 bs (0 + k) = bs.getD k 0 := Mem.get_store hk'
    rw [Nat.zero_add] at hstore
    exact hstore
  rw [hget, hget]

theorem length_bytes (v : QpVaddr) : v.bytes.length = sizeofQpVaddr := rfl

/-- The bytes of a long word, put together again. -/
theorem append_bytes_long (x : U64) :
    x.extractLsb' 32 32 ++ (x.extractLsb' 24 8 ++ x.extractLsb' 16 8
      ++ x.extractLsb' 8 8 ++ x.extractLsb' 0 8) = x := by
  apply BitVec.eq_of_getLsbD_eq
  intro i hi
  simp only [BitVec.getLsbD_append, BitVec.getLsbD_extractLsb']
  grind

/-- A request that is sent is read as it was. -/
theorem ofBytes_bytes (v : QpVaddr) : QpVaddr.ofBytes v.bytes = v := by
  have hword (x : U32) := append_bytes x
  have hlong (x : U64) := append_bytes_long x
  cases v with
  | mk cmd rkey vaddr phyaddr len =>
    simp [QpVaddr.ofBytes, QpVaddr.load, QpVaddr.bytes, Mem.store, loadLe64,
      Mem.loadLe32, le32, le64, hword, hlong]

/-- The requests in a client's bytes: those that are whole. -/
def requests (bs : List U8) : List QpVaddr :=
  records sizeofQpVaddr QpVaddr.ofBytes bs

theorem requests_append {taken bs : List U8}
    (h : sizeofQpVaddr ∣ taken.length) (hbs : bs.length = sizeofQpVaddr) :
    requests (taken ++ bs) = requests taken ++ [.ofBytes bs] :=
  records_append (by decide) h hbs

-- ================================================================= served

/-- The request that is in the thread's buffer. -/
def Conn.pending (conn : Conn) : List QpVaddr :=
  if conn.thread = .handle then [.load conn.vaddr] else []

/-- The requests the thread has taken are those in the bytes it has
taken, and it has taken whole ones. -/
def Conn.Framed (conn : Conn) (handled : List QpVaddr) : Prop :=
  ∃ taken, conn.sent = taken ++ conn.unread
    ∧ sizeofQpVaddr ∣ taken.length
    ∧ handled ++ conn.pending = requests taken

namespace Net

variable {s : Net} {c : Nat}

/-- The requests of a client that were handled, in order. -/
def handled (s : Net) (c : Nat) : List QpVaddr :=
  (s.log.filter fun req => req.client = c).map Request.vaddr

/-- The pool is what the requests of the clients make of it, each
client's in the order it has sent them. -/
structure Served (s : Net) : Prop where
  world : s.world = exec World.step .start s.log
  framed : ∀ c, (s.conns c).Framed (s.handled c)

/-- A request is read whole. -/
def WholeRead (s : Net) : NetAct → Prop
  | .read c k => s.Reads c k → k = sizeofQpVaddr
  | _ => True

instance (s : Net) : ∀ act, Decidable (s.WholeRead act)
  | .read c k => inferInstanceAs (Decidable (s.Reads c k → k = _))
  | .connect => isTrue trivial
  | .send _ _ => isTrue trivial
  | .close _ => isTrue trivial
  | .loop => isTrue trivial
  | .accept _ => isTrue trivial
  | .readEnds _ _ => isTrue trivial
  | .handle _ _ => isTrue trivial

theorem served_start : start.Served := by
  constructor
  · rfl
  · intro c
    exact ⟨[], rfl, Nat.dvd_zero _, rfl⟩

/-- The server goes on with a connection that is in order. -/
theorem Served.setConn (h : s.Served) {conn : Conn}
    (hconn : conn.Framed (s.handled c)) : (s.setConn c conn).Served := by
  refine ⟨h.world, ?_⟩
  intro c'
  by_cases hc : c' = c
  · subst hc
    simp only [Net.setConn, Function.update_self]
    exact hconn
  · simp only [Net.setConn, Function.update_of_ne hc]
    exact h.framed c'

theorem handled_handle (s : Net) (c c' : Nat) :
    (s.handle c).handled c'
      = if c' = c then s.handled c' ++ [.load (s.conns c).vaddr]
        else s.handled c' := by
  by_cases hc : c' = c
  · subst hc
    simp [handled, handle]
  · simp [handled, handle, hc, Ne.symm hc]

theorem served_handle (h : s.Served)
    (hthread : (s.conns c).thread = .handle) : (s.handle c).Served := by
  constructor
  · show s.world.step _ = exec World.step .start (s.log ++ [_])
    rw [exec_append, ← h.world]
    rfl
  · intro c'
    rw [handled_handle]
    by_cases hc : c' = c
    · subst hc
      obtain ⟨taken, hsent, hdvd, hreq⟩ := h.framed c'
      refine ⟨taken, ?_, hdvd, ?_⟩
      · simp only [handle, Net.setConn, Function.update_self]
        exact hsent
      · simp only [handle, Net.setConn, Function.update_self, if_true]
        rw [← hreq]
        simp [Conn.pending, hthread]
    · simp only [handle, Net.setConn, Function.update_of_ne hc, if_neg hc]
      exact h.framed c'

/-- A whole request is read. -/
theorem served_read (h : s.Served) (hreads : s.Reads c sizeofQpVaddr) :
    (s.read c sizeofQpVaddr).Served := by
  obtain ⟨-, -, hthread, -, -, hlen⟩ := hreads
  apply h.setConn
  obtain ⟨taken, hsent, hdvd, hreq⟩ := h.framed c
  have htake : ((s.conns c).unread.take sizeofQpVaddr).length
      = sizeofQpVaddr := by
    rw [List.length_take, Nat.min_eq_left hlen]
  refine ⟨taken ++ (s.conns c).unread.take sizeofQpVaddr, ?_, ?_, ?_⟩
  · dsimp only
    rw [List.append_assoc, List.take_append_drop]
    exact hsent
  · rw [List.length_append, htake]
    exact (Nat.dvd_add_right hdvd).2 (Nat.dvd_refl _)
  · rw [requests_append hdvd htake, ← hreq]
    simp only [Conn.pending, hthread, if_true, reduceCtorEq, if_false,
      List.append_nil, load_store htake]

theorem served_step (s : Net) (act : NetAct) (h : s.Served)
    (hwhole : s.WholeRead act) : (s.step act).Served := by
  have hset (c : Nat) {conn : Conn}
      (hsent : conn.sent = (s.conns c).sent)
      (hunread : conn.unread = (s.conns c).unread)
      (hpending : conn.pending = (s.conns c).pending) :
      (s.setConn c conn).Served := by
    apply h.setConn
    unfold Conn.Framed
    rw [hsent, hunread, hpending]
    exact h.framed c
  cases act with
  | connect =>
    simp only [step]
    split
    · exact ⟨h.world, h.framed⟩
    · exact h
  | send c bs =>
    simp only [step]
    split
    · apply h.setConn
      obtain ⟨taken, hsent, hdvd, hreq⟩ := h.framed c
      refine ⟨taken, ?_, hdvd, hreq⟩
      dsimp only
      rw [hsent, List.append_assoc]
    · exact h
  | close c =>
    simp only [step]
    split
    · exact hset c rfl rfl rfl
    · exact h
  | loop =>
    simp only [step]
    split
    · unfold loop
      dsimp only
      split
      · exact ⟨h.world, h.framed⟩
      · exact ⟨h.world, h.framed⟩
    · exact h
  | accept ok =>
    simp only [step]
    split
    · split
      · exact ⟨h.world, h.framed⟩
      · split
        · exact ⟨h.world, h.framed⟩
        · exact h
    · exact h
  | read c k =>
    simp only [step]
    split
    · next hreads =>
      have hk := hwhole hreads
      subst hk
      exact served_read h hreads
    · exact h
  | readEnds c failed =>
    simp only [step]
    split
    · next hends =>
      refine hset c rfl rfl ?_
      simp [Conn.pending, hends.2.2.1]
    · exact h
  | handle c pipe =>
    simp only [step]
    split
    · next hhandle =>
      have hserved := served_handle h hhandle.2
      split
      · exact ⟨hserved.world, hserved.framed⟩
      · exact hserved
    · exact h

-- ============================================================= short reads

end Net

/-- The thread has taken more requests than there are bytes for, with
`handled` of them handled. -/
def Conn.Short (conn : Conn) (handled : Nat) : Prop :=
  conn.sent.length
    < sizeofQpVaddr * (handled + conn.pending.length) + conn.unread.length

namespace Net

variable {s : Net} {c : Nat}

def Behind (s : Net) (c : Nat) : Prop :=
  (s.conns c).Short (s.handled c).length

theorem not_behind (h : s.Served) (c : Nat) : ¬ s.Behind c := by
  obtain ⟨taken, hsent, hdvd, hreq⟩ := h.framed c
  unfold Behind Conn.Short
  rw [← List.length_append, hreq, hsent, List.length_append, requests,
    length_records, Nat.mul_div_cancel' hdvd]
  exact Nat.lt_irrefl _

/-- A short read leaves the thread behind. -/
theorem behind_read (h : s.Served) {k : Nat} (hreads : s.Reads c k)
    (hk : k ≠ sizeofQpVaddr) : (s.read c k).Behind c := by
  obtain ⟨-, -, hthread, hpos, hle, hlen⟩ := hreads
  obtain ⟨taken, hsent, hdvd, hreq⟩ := h.framed c
  have hcount := congrArg List.length hreq
  have hsent' := congrArg List.length hsent
  rw [requests, length_records, List.length_append] at hcount
  rw [List.length_append, ← Nat.mul_div_cancel' hdvd, ← hcount] at hsent'
  have hhandled : (s.read c k).handled c = s.handled c := rfl
  unfold Behind Conn.Short
  rw [hhandled]
  simp only [read, Net.setConn, Function.update_self, Conn.pending, if_true,
    List.length_singleton, List.length_drop]
  simp only [Conn.pending, hthread, reduceCtorEq, if_false,
    List.length_nil] at hsent'
  rw [Nat.mul_add, hsent', Nat.add_zero]
  omega

/-- A thread that is behind does not get ahead by what is done to its
connection. -/
theorem behind_setConn (h : s.Behind c) {c' : Nat} {conn : Conn}
    (hconn : (s.conns c').Short (s.handled c').length →
      conn.Short (s.handled c').length) : (s.setConn c' conn).Behind c := by
  unfold Behind at h ⊢
  have hhandled : (s.setConn c' conn).handled c = s.handled c := rfl
  rw [hhandled]
  by_cases hc : c = c'
  · subst hc
    simp only [Net.setConn, Function.update_self]
    exact hconn h
  · simp only [Net.setConn, Function.update_of_ne hc]
    exact h

theorem behind_handle (h : s.Behind c) {c' : Nat}
    (hthread : (s.conns c').thread = .handle) : (s.handle c').Behind c := by
  unfold Behind at h ⊢
  rw [handled_handle]
  by_cases hc : c = c'
  · subst hc
    simp only [handle, Net.setConn, Function.update_self, if_true]
    simp only [Conn.Short, Conn.pending, hthread, if_true, reduceCtorEq,
      if_false, List.length_append, List.length_singleton,
      List.length_nil] at h ⊢
    exact h
  · simp only [handle, Net.setConn, Function.update_of_ne hc, if_neg hc]
    exact h

theorem behind_step (s : Net) (act : NetAct) (h : s.Behind c) :
    (s.step act).Behind c := by
  cases act with
  | connect =>
    simp only [step]
    split
    · exact h
    · exact h
  | send c' bs =>
    simp only [step]
    split
    · apply behind_setConn h
      intro hshort
      simp only [Conn.Short, Conn.pending, List.length_append] at hshort ⊢
      omega
    · exact h
  | close c' =>
    simp only [step]
    split
    · exact behind_setConn h fun hshort => hshort
    · exact h
  | loop =>
    simp only [step]
    split
    · unfold loop
      dsimp only
      split
      · exact h
      · exact h
    · exact h
  | accept ok =>
    simp only [step]
    split
    · split
      · exact h
      · split
        · exact h
        · exact h
    · exact h
  | read c' k =>
    simp only [step]
    split
    · next hreads =>
      obtain ⟨-, -, hthread, -, hle, hlen⟩ := hreads
      apply behind_setConn h
      intro hshort
      simp only [Conn.Short, Conn.pending, hthread, if_true, reduceCtorEq,
        if_false, List.length_nil, List.length_singleton,
        List.length_drop, Nat.mul_add] at hshort ⊢
      omega
    · exact h
  | readEnds c' failed =>
    simp only [step]
    split
    · next hends =>
      apply behind_setConn h
      intro hshort
      simp only [Conn.Short, Conn.pending, hends.2.2.1, reduceCtorEq,
        if_false] at hshort ⊢
      exact hshort
    · exact h
  | handle c' pipe =>
    simp only [step]
    split
    · next hhandle =>
      have hbehind := behind_handle h hhandle.2
      split
      · exact hbehind
      · exact hbehind
    · exact h

-- ================================================================== runs

/-- A run from a state that is served: the server stays in step with its
clients to the end exactly if every request is read whole. -/
theorem served_iff (acts : List NetAct) {s : Net} (h : s.Served) :
    (exec step s acts).Served ↔ Each step WholeRead s acts := by
  induction acts generalizing s with
  | nil => exact iff_of_true h trivial
  | cons act acts ih =>
    rw [exec_cons, Each]
    by_cases hwhole : s.WholeRead act
    · rw [ih (served_step s act h hwhole)]
      exact (and_iff_right hwhole).symm
    · refine iff_of_false ?_ fun hall => hwhole hall.1
      cases act with
      | read c k =>
        obtain ⟨hreads, hk⟩ := Classical.not_imp.1 hwhole
        have hbehind : (s.step (.read c k)).Behind c := by
          simp only [step, if_pos hreads]
          exact behind_read h hreads hk
        intro hserved
        exact not_behind hserved c (exec_inv behind_step hbehind acts)
      | _ => exact absurd trivial hwhole

/-- Over every run of the server and its clients, in any interleaving and
whatever the clients send: at the end the pool is what the requests of
the clients make of it, each client's taken in the order it has sent
them, exactly if each `read` so far has returned a whole request. -/
theorem served_exactly (acts : List NetAct) :
    (exec step start acts).Served ↔ Each step WholeRead start acts :=
  served_iff acts served_start

/-- A client that sends requests has the first ones of them handled, in
order and each once, and when there is nothing on the way any more, all
of them. -/
theorem requests_arrive (acts : List NetAct)
    (hwhole : Each step WholeRead start acts) (c : Nat)
    (reqs : List QpVaddr)
    (hsent : ((exec step start acts).conns c).sent
      = (reqs.map QpVaddr.bytes).flatten) :
    (exec step start acts).handled c <+: reqs
      ∧ (((exec step start acts).conns c).unread = [] →
        ((exec step start acts).conns c).thread ≠ .handle →
        (exec step start acts).handled c = reqs) := by
  have hserved := (served_iff acts served_start).2 hwhole
  generalize exec step start acts = s at hserved hsent
  obtain ⟨taken, htaken, -, hreq⟩ := hserved.framed c
  have hall : requests (s.conns c).sent = reqs := by
    rw [hsent]
    exact (records_flatten (by decide) length_bytes ofBytes_bytes reqs).2
  have hpre : requests taken <+: reqs := by
    rw [← hall]
    apply records_mono (by decide)
    exact ⟨_, htaken.symm⟩
  constructor
  · apply List.IsPrefix.trans _ hpre
    exact ⟨_, hreq⟩
  · intro hunread hthread
    rw [hunread, List.append_nil] at htaken
    rw [← hall, htaken, ← hreq, Conn.pending, if_neg hthread,
      List.append_nil]

/-- A client that registers a region. -/
theorem requests_arrive_one :
    let v : QpVaddr := ⟨cmdWrite, 7, 0x1000, 0x2000, 64⟩
    (exec step start
      [.connect, .loop, .accept true, .send 0 v.bytes, .read 0 32,
        .handle 0 false]).handled 0 = [v] :=
  (requests_arrive _ (by decide) 0 [_] rfl).2 rfl (by decide)

-- ================================================================= limits

end Net

theorem serverRemove_mrLen (srv : Server) (v : QpVaddr) :
    (serverRemove srv v).mrLen = srv.mrLen - 1 := by
  unfold serverRemove bxroceRemoveMr
  dsimp only
  split
  · rfl
  · split
    · rfl
    · rfl

/-- A request adds one region at most. -/
theorem serverFun_mrLen (srv : Server) (sginfo : SgPhyInfo) (v : QpVaddr) :
    (serverFun srv sginfo v).1.mrLen ≤ srv.mrLen + 1 := by
  have hremove := serverRemove_mrLen srv v
  unfold serverFun
  split
  · exact Int.le_add_one le_rfl
  · split
    · exact le_rfl
    · split
      · dsimp only
        omega
      · exact Int.le_add_one le_rfl

theorem mrLen_exec (log : List Request) :
    (exec World.step .start log).srv.mrLen ≤ log.length := by
  induction log using List.reverseRecOn with
  | nil => exact le_rfl
  | append_singleton log req ih =>
    rw [exec_append, List.length_append, List.length_singleton]
    apply (serverFun_mrLen _ _ _).trans
    omega

namespace Net

variable {s : Net} {c : Nat}

/-- What bounds the work of the server, whatever it reads. -/
structure Limited (s : Net) : Prop where
  world : s.world = exec World.step .start s.log
  waited : s.accepted + (if s.accepting then 1 else 0) ≤ s.tmpNum
  left : s.exited = false → s.tmpNum ≤ threadNum
  few : s.accepted ≤ threadNum
  /-- Only clients that were accepted are served. -/
  known : ∀ c, s.accepted ≤ c →
    (s.conns c).thread = .read ∧ s.handled c = []
  /-- A request takes a byte at least. -/
  fed : ∀ c, (s.handled c).length + (s.conns c).pending.length
    + (s.conns c).unread.length ≤ (s.conns c).sent.length

theorem limited_start : start.Limited where
  world := rfl
  waited := Nat.le_refl 0
  left := fun _ => Nat.zero_le _
  few := Nat.zero_le _
  known := fun _ _ => ⟨rfl, rfl⟩
  fed := fun _ => Nat.le_refl 0

theorem limited_setConn (h : s.Limited) {conn : Conn}
    (hknown : s.accepted ≤ c → conn.thread = .read)
    (hfed : (s.handled c).length + conn.pending.length
      + conn.unread.length ≤ conn.sent.length) :
    (s.setConn c conn).Limited := by
  refine ⟨h.world, h.waited, h.left, h.few, ?_, ?_⟩
  · intro c' hc'
    refine ⟨?_, (h.known c' hc').2⟩
    by_cases hc : c' = c
    · subst hc
      simp only [Net.setConn, Function.update_self]
      exact hknown hc'
    · simp only [Net.setConn, Function.update_of_ne hc]
      exact (h.known c' hc').1
  · intro c'
    by_cases hc : c' = c
    · subst hc
      simp only [Net.setConn, Function.update_self]
      exact hfed
    · simp only [Net.setConn, Function.update_of_ne hc]
      exact h.fed c'

theorem limited_handle (h : s.Limited)
    (hthread : (s.conns c).thread = .handle) : (s.handle c).Limited := by
  have haccepted : c < s.accepted := by
    by_contra hc
    rw [(h.known c (Nat.le_of_not_lt hc)).1] at hthread
    cases hthread
  refine ⟨?_, h.waited, h.left, h.few, ?_, ?_⟩
  · show s.world.step _ = exec World.step .start (s.log ++ [_])
    rw [exec_append, ← h.world]
    rfl
  · intro c' hc'
    have hc : c' ≠ c := by
      intro heq
      rw [heq] at hc'
      exact Nat.lt_irrefl _ (haccepted.trans_le hc')
    rw [handled_handle, if_neg hc]
    simp only [handle, Net.setConn, Function.update_of_ne hc]
    exact h.known c' hc'
  · intro c'
    rw [handled_handle]
    have hfed := h.fed c'
    by_cases hc : c' = c
    · subst hc
      simp only [handle, Net.setConn, Function.update_self, if_true]
      simp only [Conn.pending, hthread, if_true, reduceCtorEq, if_false,
        List.length_append, List.length_singleton,
        List.length_nil] at hfed ⊢
      exact hfed
    · simp only [handle, Net.setConn, Function.update_of_ne hc, if_neg hc]
      exact hfed

theorem limited_loop (h : s.Limited) (haccepting : s.accepting = false) :
    s.loop.Limited := by
  have hwaited := h.waited
  rw [haccepting] at hwaited
  unfold loop
  dsimp only
  split
  · refine ⟨h.world, ?_, ?_, h.few, h.known, h.fed⟩
    · dsimp only
      rw [haccepting]
      exact hwaited.trans (Nat.le_succ _)
    · intro hfalse
      cases hfalse
  · next hroom =>
    refine ⟨h.world, ?_, ?_, h.few, h.known, h.fed⟩
    · exact Nat.succ_le_succ hwaited
    · exact fun _ => Nat.le_of_not_lt hroom

theorem limited_accept (h : s.Limited) (hexited : s.exited = false)
    (haccepting : s.accepting = true) :
    Limited { s with accepting := false, accepted := s.accepted + 1 } := by
  have hwaited := h.waited
  rw [haccepting] at hwaited
  refine ⟨h.world, hwaited, h.left, hwaited.trans (h.left hexited), ?_,
    h.fed⟩
  intro c hc
  exact h.known c (Nat.le_of_succ_le hc)

theorem limited_step (s : Net) (act : NetAct) (h : s.Limited) :
    (s.step act).Limited := by
  cases act with
  | connect =>
    simp only [step]
    split
    · exact ⟨h.world, h.waited, h.left, h.few, h.known, h.fed⟩
    · exact h
  | send c bs =>
    simp only [step]
    split
    · refine limited_setConn h (fun hc => (h.known c hc).1) ?_
      have hfed := h.fed c
      simp only [Conn.pending, List.length_append] at hfed ⊢
      omega
    · exact h
  | close c =>
    simp only [step]
    split
    · exact limited_setConn h (fun hc => (h.known c hc).1) (h.fed c)
    · exact h
  | loop =>
    simp only [step]
    split
    · next hloop => exact limited_loop h hloop.2
    · exact h
  | accept ok =>
    simp only [step]
    split
    · next haccept =>
      split
      · refine ⟨h.world, ?_, h.left, h.few, h.known, h.fed⟩
        exact (Nat.le_add_right _ _).trans h.waited
      · split
        · exact limited_accept h haccept.1 haccept.2
        · exact h
    · exact h
  | read c k =>
    simp only [step]
    split
    · next hreads =>
      obtain ⟨-, haccepted, hthread, hpos, -, hlen⟩ := hreads
      apply limited_setConn h
      · intro hc
        exact absurd haccepted (Nat.not_lt.2 hc)
      · have hfed := h.fed c
        simp only [Conn.pending, hthread, if_true, reduceCtorEq, if_false,
          List.length_nil, List.length_singleton,
          List.length_drop] at hfed ⊢
        omega
    · exact h
  | readEnds c failed =>
    simp only [step]
    split
    · next hends =>
      obtain ⟨-, haccepted, hthread, -⟩ := hends
      apply limited_setConn h
      · intro hc
        exact absurd haccepted (Nat.not_lt.2 hc)
      · have hfed := h.fed c
        simp only [Conn.pending, hthread, reduceCtorEq,
          if_false] at hfed ⊢
        exact hfed
    · exact h
  | handle c pipe =>
    simp only [step]
    split
    · next hhandle =>
      have hlimited := limited_handle h hhandle.2
      split
      · refine ⟨hlimited.world, hlimited.waited, ?_, hlimited.few,
          hlimited.known, hlimited.fed⟩
        intro hfalse
        cases hfalse
      · exact hlimited
    · exact h

/-- What is handled of each client bounds what is handled of all. -/
theorem length_log_le (h : s.Limited) {b : Nat}
    (hb : ∀ c < s.accepted, (s.handled c).length ≤ b) :
    s.log.length ≤ threadNum * b := by
  have hcount (c : Nat) : (s.log.map Request.client).count c
      = (s.handled c).length := by
    unfold handled
    rw [List.length_map, List.count, List.countP_map,
      List.countP_eq_length_filter]
    rfl
  have hclient : ∀ c ∈ (s.log.map Request.client : Multiset Nat),
      c ∈ Finset.range s.accepted := by
    intro c hc
    rw [Finset.mem_range]
    by_contra hle
    have hnone := (h.known c (Nat.le_of_not_lt hle)).2
    have hpos := List.count_pos_iff.2 (Multiset.mem_coe.1 hc)
    rw [hcount, hnone] at hpos
    exact Nat.lt_irrefl 0 hpos
  have hsum := Multiset.sum_count_eq_card hclient
  rw [Multiset.coe_card, List.length_map] at hsum
  rw [← hsum]
  calc ∑ c ∈ Finset.range s.accepted,
        Multiset.count c (s.log.map Request.client : Multiset Nat)
      ≤ ∑ c ∈ Finset.range s.accepted, b := by
        apply Finset.sum_le_sum
        intro c hc
        rw [Multiset.coe_count, hcount]
        exact hb c (Finset.mem_range.1 hc)
    _ = s.accepted * b := by
        rw [Finset.sum_const_nat fun _ _ => rfl, Finset.card_range]
    _ ≤ threadNum * b := Nat.mul_le_mul_right b h.few

/-- Over every run in which each client sends one request at most, as the
library's do: the pool has room, however the requests are read. If they
are read whole, the server handles no more than 1024 in its life. -/
theorem clients_limited (acts : List NetAct)
    (hone : ∀ c < (exec step start acts).accepted,
      ((exec step start acts).conns c).sent.length ≤ sizeofQpVaddr) :
    (exec step start acts).world.srv.mrLen ≤ mrCapacity
      ∧ (Each step WholeRead start acts →
        (exec step start acts).log.length ≤ threadNum) := by
  have hlimited := exec_inv limited_step limited_start acts
  have hserved := served_iff acts served_start
  generalize exec step start acts = s at hone hlimited hserved ⊢
  constructor
  · have hbytes : s.log.length ≤ threadNum * sizeofQpVaddr := by
      apply length_log_le hlimited
      intro c hc
      have hfed := hlimited.fed c
      have hsent := hone c hc
      omega
    have hpool := mrLen_exec s.log
    rw [← hlimited.world] at hpool
    have hroom : threadNum * sizeofQpVaddr ≤ mrCapacity := by decide
    omega
  · intro hwhole
    rw [← Nat.mul_one threadNum]
    apply length_log_le hlimited
    intro c hc
    obtain ⟨taken, hsent, hdvd, hreq⟩ := (hserved.2 hwhole).framed c
    have hcount := congrArg List.length hreq
    rw [requests, length_records, List.length_append] at hcount
    have htaken : taken.length ≤ sizeofQpVaddr := by
      have := hone c hc
      rw [hsent, List.length_append] at this
      omega
    have hdiv : taken.length / sizeofQpVaddr ≤ 1 := by
      rw [← Nat.div_self (n := sizeofQpVaddr) (by decide)]
      exact Nat.div_le_div_right htaken
    omega

/-- Two clients, and a request each. -/
theorem clients_limited_two :
    let v : QpVaddr := ⟨cmdWrite, 7, 0x1000, 0x2000, 64⟩
    let acts : List NetAct :=
      [.connect, .connect, .loop, .accept true, .send 0 v.bytes, .loop,
        .accept true, .read 0 32, .handle 0 false, .close 0,
        .send 1 v.bytes, .read 1 32, .handle 1 false]
    (exec step start acts).world.srv.mrLen ≤ mrCapacity
      ∧ (exec step start acts).log.length ≤ threadNum :=
  (clients_limited _ (by decide)).imp_right fun h => h (by decide)

end Net

end BxRnic.Exchange
