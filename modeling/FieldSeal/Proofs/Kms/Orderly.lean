import FieldSeal.Proofs.Interaction.Span
import FieldSeal.Proofs.Kms.RoundTrip

/-!
Decryptors and connections in a trace. The `k`-th decryptor is in hand from the `k`-th time that one is handed out,
and the `k`-th connection is in use from the `k`-th time that one is opened. A trace is orderly when the two
keep step.
-/

namespace FieldSeal

open FieldSeal.Trace

namespace Event

def isConnect : Event → Bool
  | .service (.connect _ _) _ => true
  | _ => false

variable {e : Event}

theorem not_isHandout_of_ofRoundTrip (h : e.ofRoundTrip = true) : e.isHandout = false := by
  unfold isHandout
  split
  · cases h
  · rfl

theorem not_isConnect_of_onConnection (h : e.onConnection = true) : e.isConnect = false := by
  unfold isConnect
  split
  · cases h
  · rfl

theorem not_ofRoundTrip_of_isAside (h : e.isAside = true) : e.ofRoundTrip = false := by
  unfold isAside at h
  rw [Bool.and_eq_true, Bool.not_eq_true'] at h
  exact Bool.not_eq_true' _ ▸ h.2

theorem not_isHandout_of_isAside (h : e.isAside = true) : e.isHandout = false := by
  unfold isAside at h
  rw [Bool.and_eq_true, Bool.not_eq_true'] at h
  exact h.1

theorem not_isConnect_of_isAside (h : e.isAside = true) : e.isConnect = false := by
  have hnot := not_ofRoundTrip_of_isAside h
  unfold isConnect
  split
  · cases hnot
  · rfl

theorem fed?_of_isAside (h : e.isAside = true) : e.fed? = none := by
  have hnot := not_ofRoundTrip_of_isAside h
  unfold fed?
  split
  · cases hnot
  · rfl

theorem got?_of_isAside (h : e.isAside = true) : e.got? = none := by
  have hnot := not_ofRoundTrip_of_isAside h
  unfold got?
  split
  · cases hnot
  · rfl

end Event

namespace Trace

variable {t u before after : List Event} {k : Nat}

def handouts (t : List Event) : Nat :=
  t.countP Event.isHandout

def connects (t : List Event) : Nat :=
  t.countP Event.isConnect

/-- What is fed to the `k`-th decryptor. -/
def fedTo (k : Nat) (t : List Event) : List Bytes :=
  fed (span Event.isHandout k t)

/-- What is read from the `k`-th connection. -/
def readFrom (k : Nat) (t : List Event) : List Bytes :=
  got (span Event.isConnect k t)

theorem fedTo_append (k : Nat) (t u : List Event) :
    fedTo k (t ++ u) = fedTo k t ++ if handouts t ≤ k then fedTo (k - handouts t) u else [] :=
  filterMap_span_append Event.fed? Event.isHandout k t u

theorem readFrom_append (k : Nat) (t u : List Event) :
    readFrom k (t ++ u) = readFrom k t ++ if connects t ≤ k then readFrom (k - connects t) u else [] :=
  filterMap_span_append Event.got? Event.isConnect k t u

theorem fedTo_eq (ht : ∀ e ∈ t, e.isHandout = false) (k : Nat) :
    fedTo k t = if k = 0 then fed t else [] :=
  filterMap_span_of_forall Event.fed? ht k

theorem readFrom_eq (ht : ∀ e ∈ t, e.isConnect = false) (k : Nat) :
    readFrom k t = if k = 0 then got t else [] :=
  filterMap_span_of_forall Event.got? ht k

theorem handouts_append (t u : List Event) : handouts (t ++ u) = handouts t + handouts u :=
  List.countP_append

theorem connects_append (t u : List Event) : connects (t ++ u) = connects t + connects u :=
  List.countP_append

theorem fedTo_zero_of_append (h : fedTo 0 (t ++ u) = []) : fedTo 0 t = [] := by
  rw [fedTo_append] at h
  exact (List.append_eq_nil_iff.1 h).1

/-- Every decryptor handed out said at last that it needs no more, and was fed nothing after that. -/
def Satisfied (t : List Event) : Prop :=
  ∀ k, 0 < k → k ≤ handouts t →
    ∃ before after, t = before ++ .engine .bytesNeeded 0 :: after ∧ handouts before = k ∧
      fedTo k before = fedTo k t

theorem Satisfied.append (ht : Satisfied t) (hu : Satisfied u) (hfresh : fedTo 0 u = []) :
    Satisfied (t ++ u) := by
  intro k hpos hle
  rw [handouts_append] at hle
  by_cases hk : k ≤ handouts t
  · -- the second trace feeds nothing before it hands out a decryptor of its own
    obtain ⟨before, after, hsplit, hcount, hfed⟩ := ht k hpos hk
    refine ⟨before, after ++ u, ?_, hcount, ?_⟩
    · rw [hsplit, List.append_assoc]
      rfl
    · have hrest : (if handouts t ≤ k then fedTo (k - handouts t) u else []) = [] := by
        by_cases heq : handouts t ≤ k
        · rw [if_pos heq, Nat.sub_eq_zero_of_le hk, hfresh]
        · rw [if_neg heq]
      rw [fedTo_append, hrest, List.append_nil, hfed]
  · -- a decryptor of the second trace, counted on from those of the first
    have hless : handouts t ≤ k := by omega
    obtain ⟨before, after, hsplit, hcount, hfed⟩ := hu (k - handouts t) (by omega) (by omega)
    refine ⟨t ++ before, after, ?_, ?_, ?_⟩
    · rw [hsplit, List.append_assoc]
    · rw [handouts_append, hcount]
      omega
    · rw [fedTo_append, fedTo_append, if_pos hless, if_pos hless, hfed]

/-- The `k`-th connection is opened while the `k`-th decryptor is in hand and brings what that is fed, a connection
is shut down before the next is opened, and the decryptors are completed only when all of them are
satisfied. -/
structure Orderly (t : List Event) : Prop where
  step : ∀ before after, t = before ++ after →
    connects before ≤ handouts before ∧ handouts before ≤ connects before + 1
  own : ∀ k, fedTo k t = readFrom k t
  fresh : fedTo 0 t = []
  apart : ∀ before first middle second after, t = before ++ first :: (middle ++ second :: after) →
    first.isConnect = true → second.isConnect = true →
      ∃ answer, .service .shutdown (some answer) ∈ middle
  complete : ∀ before answer after, t = before ++ .engine .completeDecryptors answer :: after →
    Satisfied before

/-- An orderly trace after which nothing is left to be done for the decryptors handed out so far. -/
structure Settled (t : List Event) : Prop extends Orderly t where
  even : handouts t = connects t
  satisfied : Satisfied t
  shut : ∀ before e after, t = before ++ e :: after → e.isConnect = true →
    ∃ answer, .service .shutdown (some answer) ∈ after

theorem Orderly.prepend (ht : Settled t) (hu : Orderly u) : Orderly (t ++ u) where
  step := by
    intro before after hsplit
    rcases List.append_eq_append_iff.1 hsplit with ⟨rest, rfl, hu'⟩ | ⟨rest, ht', -⟩
    · have hrest := hu.step rest after hu'
      rw [handouts_append, connects_append, ht.even]
      omega
    · exact ht.step before rest ht'
  own k := by
    rw [fedTo_append, readFrom_append, ht.own, ht.even, hu.own]
  fresh := by
    rw [fedTo_append, ht.fresh, List.nil_append]
    by_cases h : handouts t ≤ 0
    · rw [if_pos h, Nat.zero_sub, hu.fresh]
    · rw [if_neg h]
  apart := by
    intro before first middle second after hsplit hfirst hsecond
    rcases append_eq_split hsplit with ⟨rest, ht', hrest⟩ | ⟨rest, hu', -⟩
    · rcases append_eq_split hrest.symm with ⟨later, hmiddle, -⟩ | ⟨later, -, rfl⟩
      · rw [hmiddle] at ht'
        exact ht.apart before first middle second later ht' hfirst hsecond
      · -- one connection in each trace: the first is shut down where its trace ends
        obtain ⟨answer, hmem⟩ := ht.shut before first rest ht' hfirst
        exact ⟨answer, List.mem_append_left later hmem⟩
    · exact hu.apart rest first middle second after hu' hfirst hsecond
  complete := by
    intro before answer after hsplit
    rcases append_eq_split hsplit with ⟨rest, ht', -⟩ | ⟨rest, hu', rfl⟩
    · exact ht.complete before answer rest ht'
    · have hfresh := hu.fresh
      rw [hu'] at hfresh
      exact ht.satisfied.append (hu.complete rest answer after hu') (fedTo_zero_of_append hfresh)

theorem fedTo_zero_cons {e : Event} (he : e.isHandout = true) (t : List Event) : fedTo 0 (e :: t) = [] := by
  rw [fedTo, span_zero_of_mark he, fed_nil]

theorem fedTo_succ_cons {e : Event} (he : e.isHandout = true) (k : Nat) (t : List Event) :
    fedTo (k + 1) (e :: t) = fedTo k t := by
  rw [fedTo, span_succ_of_mark he]
  rfl

theorem readFrom_succ_cons {e : Event} (he : e.isConnect = true) (k : Nat) (t : List Event) :
    readFrom (k + 1) (e :: t) = readFrom k t := by
  rw [readFrom, span_succ_of_mark he]
  rfl

theorem readFrom_succ_cons_of_not {e : Event} (he : e.isConnect = false) (k : Nat) (t : List Event) :
    readFrom (k + 1) (e :: t) = readFrom (k + 1) t := by
  rw [readFrom, span_succ_of_not he]
  rfl

theorem settled_aside {e : Event} (he : e.isAside = true) : Settled [e] := by
  have hhandout := Event.not_isHandout_of_isAside he
  have hconnect := Event.not_isConnect_of_isAside he
  have hfed : fed [e] = [] := List.filterMap_cons_none (Event.fed?_of_isAside he)
  have hgot : got [e] = [] := List.filterMap_cons_none (Event.got?_of_isAside he)
  have hhandouts : handouts [e] = 0 := countP_eq_zero_of (List.forall_mem_singleton.2 hhandout)
  have hconnects : connects [e] = 0 := countP_eq_zero_of (List.forall_mem_singleton.2 hconnect)
  exact {
    step := by
      intro before after hsplit
      rw [hsplit, handouts_append] at hhandouts
      rw [hsplit, connects_append] at hconnects
      omega
    own := by
      intro k
      rw [fedTo_eq (List.forall_mem_singleton.2 hhandout), readFrom_eq (List.forall_mem_singleton.2 hconnect),
        hfed, hgot]
    fresh := by rw [fedTo_eq (List.forall_mem_singleton.2 hhandout), if_pos rfl, hfed]
    apart := by
      intro before first middle second after hsplit hfirst
      obtain ⟨-, rfl, -⟩ := singleton_eq_split hsplit
      rw [hconnect] at hfirst
      cases hfirst
    complete := by
      intro before answer after hsplit
      obtain ⟨rfl, -, -⟩ := singleton_eq_split hsplit
      intro k hpos hle
      exact absurd hle (Nat.not_le_of_lt hpos)
    even := by rw [hhandouts, hconnects]
    satisfied := by
      intro k hpos hle
      rw [hhandouts] at hle
      exact absurd hle (Nat.not_le_of_lt hpos)
    shut := by
      intro before x after hsplit hx
      obtain ⟨-, rfl, -⟩ := singleton_eq_split hsplit
      rw [hconnect] at hx
      cases hx }

theorem orderly_nil : Orderly [] where
  step before after hsplit := by
    obtain ⟨rfl, -⟩ := List.append_eq_nil_iff.1 hsplit.symm
    exact ⟨Nat.le_refl 0, Nat.zero_le 1⟩
  own k := by rw [fedTo_eq (List.forall_mem_nil _), readFrom_eq (List.forall_mem_nil _)]; rfl
  fresh := rfl
  apart _ _ _ _ _ hsplit := absurd hsplit (by simp)
  complete _ _ _ hsplit := absurd hsplit (by simp)

theorem orderly_of_asides (ht : ∀ e ∈ t, e.isAside = true) : Orderly t := by
  induction t with
  | nil => exact orderly_nil
  | cons e t ih =>
    obtain ⟨he, ht⟩ := List.forall_mem_cons.1 ht
    exact (ih ht).prepend (settled_aside he)

end Trace

namespace StreamService

open FieldSeal.Action

variable {s : StreamService} {request : KeyRequest} {t x : List Event} {ending : Ending KmsError Unit}

theorem fed_of_isSending (ht : ∀ e ∈ t, e.isSending = true) : fed t = [] := by
  refine List.filterMap_eq_nil_iff.2 fun e he => ?_
  have hsending := ht e he
  unfold Event.fed?
  split
  · cases hsending
  · rfl

theorem got_of_isSending (ht : ∀ e ∈ t, e.isSending = true) : got t = [] := by
  refine List.filterMap_eq_nil_iff.2 fun e he => ?_
  have hsending := ht e he
  unfold Event.got?
  split
  · cases hsending
  · rfl

theorem Exchange.fed_eq_got (h : Exchange s request t ending) : fed t = got t := by
  cases h with
  | unsent h hending => rw [fed_of_isSending h.callsOf.only, got_of_isSending h.callsOf.only]
  | received hsent h =>
    have hsending := hsent.callsOf.only
    rw [fed_append, got_append, fed_of_isSending hsending, got_of_isSending hsending, h.fed_eq_got]

/-- Calls of a round trip after its connection is opened. -/
structure Connected (x : List Event) : Prop where
  only : ∀ e ∈ x, e.ofRoundTrip = true
  once : ∀ e ∈ x, e.isConnect = false
  fed_eq_got : fed x = got x

theorem Exchange.connected (h : Exchange s request t ending) : Connected t where
  only e he := Event.ofRoundTrip_of_onConnection (h.callsOf.only e he)
  once e he := Event.not_isConnect_of_onConnection (h.callsOf.only e he)
  fed_eq_got := h.fed_eq_got

theorem Connected.shut (h : Connected x) (answer : Option (Except Fault Unit)) :
    Connected (x ++ [.service .shutdown answer]) where
  only := List.forall_mem_append.2 ⟨h.only, List.forall_mem_singleton.2 rfl⟩
  once := List.forall_mem_append.2 ⟨h.once, List.forall_mem_singleton.2 rfl⟩
  fed_eq_got := by
    rw [fed_append, got_append, h.fed_eq_got]
    rfl

theorem connected_nil : Connected [] :=
  ⟨List.forall_mem_nil _, List.forall_mem_nil _, rfl⟩

/-- A round trip makes no calls at all, or begins with its only connection. -/
theorem RoundTrip.shape (h : RoundTrip s request t ending) :
    t = [] ∨ ∃ host port reply x, t = .service (.connect host port) reply :: x ∧ Connected x := by
  cases h with
  | unconnected h =>
    generalize hstop : Stop.ending _ = stopped at h
    cases h with
    | closed hclosed => exact .inl rfl
    | invalid hopen haddress => exact .inl rfl
    | connected h => exact .inr ⟨_, _, _, [], rfl, connected_nil⟩
    | failed h cause => exact .inr ⟨_, _, _, [], rfl, connected_nil⟩
    | late h => exact .inr ⟨_, _, _, [], rfl, connected_nil⟩
    | abandoned h => exact .inr ⟨_, _, _, [], rfl, connected_nil⟩
  | abandoned hconnect h =>
    cases hconnect
    exact .inr ⟨_, _, _, _, rfl, h.connected⟩
  | hung hconnect h hends =>
    cases hconnect
    exact .inr ⟨_, _, _, _, rfl, h.connected.shut none⟩
  | shut hconnect h hends answer =>
    cases hconnect
    exact .inr ⟨_, _, _, _, rfl, h.connected.shut (some answer)⟩

/-- A round trip is done when its decryptor needs no more, and then it shuts its connection down. -/
theorem RoundTrip.of_done (h : RoundTrip s request t (.done ())) :
    ∃ host port reply x answer, t = .service (.connect host port) reply ::
        (x ++ [.engine .bytesNeeded 0, .service .shutdown (some answer)]) ∧
      Connected (x ++ [.engine .bytesNeeded 0, .service .shutdown (some answer)]) := by
  generalize hending : Ending.done () = ending at h
  cases h with
  | @unconnected _ stop h => cases stop <;> cases hending
  | abandoned hconnect h => cases hending
  | hung hconnect h hends => cases hending
  | @shut t u _ hconnect h hends answer =>
    subst hending
    cases hconnect
    have hconnected := h.connected.shut (some answer)
    generalize hdone : Ending.done () = ending at h
    cases h with
    | unsent h hnot => exact absurd hdone.symm hnot
    | @received sent received _ hsent h =>
      obtain ⟨before, rfl⟩ := h.done hdone.symm
      have hshape : sent ++ (before ++ [.engine .bytesNeeded 0]) ++ [.service .shutdown (some answer)] =
          sent ++ before ++ [.engine .bytesNeeded 0, .service .shutdown (some answer)] := by
        simp only [List.append_assoc, List.cons_append, List.nil_append]
      rw [hshape] at hconnected ⊢
      exact ⟨_, _, _, _, answer, rfl, hconnected⟩

/-- What comes after a decryptor is handed out, or after its connection is opened. -/
structure Quiet (y : List Event) : Prop where
  held : ∀ e ∈ y, e.isHandout = false
  once : ∀ e ∈ y, e.isConnect = false
  incomplete : ∀ answer, .engine .completeDecryptors answer ∉ y
  fed_eq_got : fed y = got y

theorem Connected.quiet (h : Connected x) : Quiet x where
  held e he := Event.not_isHandout_of_ofRoundTrip (h.only e he)
  once := h.once
  incomplete _ he := nomatch h.only _ he
  fed_eq_got := h.fed_eq_got

theorem Quiet.append {y : List Event} (hx : Quiet x) (hy : Quiet y) : Quiet (x ++ y) where
  held := List.forall_mem_append.2 ⟨hx.held, hy.held⟩
  once := List.forall_mem_append.2 ⟨hx.once, hy.once⟩
  incomplete answer he := by
    rcases List.mem_append.1 he with he | he
    · exact hx.incomplete answer he
    · exact hy.incomplete answer he
  fed_eq_got := by rw [fed_append, got_append, hx.fed_eq_got, hy.fed_eq_got]

theorem fed_of_asides {y : List Event} (hy : ∀ e ∈ y, e.isAside = true) : fed y = [] :=
  List.filterMap_eq_nil_iff.2 fun e he => Event.fed?_of_isAside (hy e he)

theorem quiet_of_asides {y : List Event} (hy : ∀ e ∈ y, e.isAside = true)
    (hincomplete : ∀ answer, .engine .completeDecryptors answer ∉ y) : Quiet y where
  held e he := Event.not_isHandout_of_isAside (hy e he)
  once e he := Event.not_isConnect_of_isAside (hy e he)
  incomplete := hincomplete
  fed_eq_got := by
    have hgot : got y = [] := List.filterMap_eq_nil_iff.2 fun e he => Event.got?_of_isAside (hy e he)
    rw [fed_of_asides hy, hgot]

theorem connects_split {before middle after : List Event} {first second : Event}
    (hfirst : first.isConnect = true) (hsecond : second.isConnect = true) :
    2 ≤ connects (before ++ first :: (middle ++ second :: after)) := by
  simp only [connects, List.countP_append, List.countP_cons_of_pos hfirst, List.countP_cons_of_pos hsecond]
  omega

theorem handouts_cons {y : List Event} (request : KeyRequest) (hy : ∀ e ∈ y, e.isHandout = false) :
    handouts (.engine .nextDecryptor (.ok (some request)) :: y) = 1 := by
  rw [handouts, List.countP_cons_of_pos rfl, countP_eq_zero_of hy]

/-- What a decryptor is fed while it is in hand comes from the one connection that is opened meanwhile. -/
theorem orderly_handout {z : List Event} (request : KeyRequest) (hheld : ∀ e ∈ z, e.isHandout = false)
    (honce : connects z ≤ 1) (hincomplete : ∀ answer, .engine .completeDecryptors answer ∉ z)
    (hown : ∀ k, readFrom k z = if k = 1 then fed z else []) :
    Orderly (.engine .nextDecryptor (.ok (some request)) :: z) where
  step := by
    intro before after hsplit
    rcases List.cons_eq_append_iff.1 hsplit with ⟨rfl, -⟩ | ⟨earlier, rfl, rfl⟩
    · exact ⟨Nat.le_refl 0, Nat.zero_le 1⟩
    · have hhandouts : handouts (.engine .nextDecryptor (.ok (some request)) :: earlier) = 1 :=
        handouts_cons request fun e he => hheld e (List.mem_append_left after he)
      have hconnects : connects (.engine .nextDecryptor (.ok (some request)) :: earlier) = connects earlier := rfl
      rw [connects_append] at honce
      omega
  own k := by
    cases k with
    | zero => exact (fedTo_zero_cons rfl z).trans (hown 0).symm
    | succ k =>
      rw [fedTo_succ_cons rfl, readFrom_succ_cons_of_not rfl, fedTo_eq hheld, hown]
      simp
  fresh := fedTo_zero_cons rfl z
  apart := by
    intro before first middle second after hsplit hfirst hsecond
    have htwo : 2 ≤ connects (.engine .nextDecryptor (.ok (some request)) :: z) := by
      rw [hsplit]
      exact connects_split hfirst hsecond
    have hone : connects (.engine .nextDecryptor (.ok (some request)) :: z) = connects z := rfl
    omega
  complete := by
    intro before answer after hsplit
    rcases cons_eq_split hsplit with ⟨-, he, -⟩ | ⟨rest, -, hrest⟩
    · cases he
    · exact absurd (by simp [hrest]) (hincomplete answer)

theorem orderly_unconnected {y : List Event} (request : KeyRequest) (hy : Quiet y) (hfed : fed y = []) :
    Orderly (.engine .nextDecryptor (.ok (some request)) :: y) := by
  have hnone : connects y = 0 := countP_eq_zero_of hy.once
  refine orderly_handout request hy.held (by omega) hy.incomplete fun k => ?_
  rw [readFrom_eq hy.once, ← hy.fed_eq_got, hfed]
  simp

theorem orderly_connected {y : List Event} (request : KeyRequest) (host : String) (port : Nat)
    (reply : Option (Except Fault Unit)) (hy : Quiet y) :
    Orderly (.engine .nextDecryptor (.ok (some request)) :: .service (.connect host port) reply :: y) := by
  have hone : connects (.service (.connect host port) reply :: y) = 1 := by
    rw [connects, List.countP_cons_of_pos rfl, countP_eq_zero_of hy.once]
  refine orderly_handout request (List.forall_mem_cons.2 ⟨rfl, hy.held⟩) (by omega) ?_ fun k => ?_
  · intro answer he
    rcases List.mem_cons.1 he with he | he
    · cases he
    · exact hy.incomplete answer he
  · cases k with
    | zero => rfl
    | succ k =>
      rw [readFrom_succ_cons rfl, readFrom_eq hy.once, ← hy.fed_eq_got]
      cases k with
      | zero => rfl
      | succ k => rfl

/-- A round trip after a decryptor is handed out is orderly, with what is left to do when it stops. -/
theorem RoundTrip.orderly (h : RoundTrip s request t ending) {tail : List Event} (htail : Quiet tail)
    (hfed : fed tail = []) : Orderly (.engine .nextDecryptor (.ok (some request)) :: (t ++ tail)) := by
  rcases h.shape with rfl | ⟨host, port, reply, x, rfl, hx⟩
  · exact orderly_unconnected request htail hfed
  · exact orderly_connected request host port reply (hx.quiet.append htail)

theorem RoundTrip.settled (h : RoundTrip s request t (.done ())) :
    Settled (.engine .nextDecryptor (.ok (some request)) :: t) := by
  obtain ⟨host, port, reply, x, answer, rfl, hx⟩ := h.of_done
  have hheld := hx.quiet.held
  have hearlier : ∀ e ∈ x, e.isHandout = false := fun e he => hheld e (List.mem_append_left _ he)
  exact {
    toOrderly := orderly_connected request host port reply hx.quiet
    even := by
      rw [handouts_cons request (List.forall_mem_cons.2 ⟨rfl, hheld⟩), connects,
        List.countP_cons_of_neg (by simp [Event.isConnect]), List.countP_cons_of_pos rfl,
        countP_eq_zero_of hx.once]
    satisfied := by
      intro k hpos hle
      rw [handouts_cons request (List.forall_mem_cons.2 ⟨rfl, hheld⟩)] at hle
      obtain rfl : k = 1 := by omega
      refine ⟨.engine .nextDecryptor (.ok (some request)) :: .service (.connect host port) reply :: x,
        [.service .shutdown (some answer)], rfl, handouts_cons request (List.forall_mem_cons.2 ⟨rfl, hearlier⟩),
        ?_⟩
      rw [fedTo_succ_cons rfl, fedTo_succ_cons rfl, fedTo_eq (List.forall_mem_cons.2 ⟨rfl, hearlier⟩),
        fedTo_eq (List.forall_mem_cons.2 ⟨rfl, hheld⟩), if_pos rfl, if_pos rfl]
      show fed x = fed (x ++ [.engine .bytesNeeded 0, .service .shutdown (some answer)])
      rw [fed_append]
      exact (List.append_nil (fed x)).symm
    shut := by
      intro before e after hsplit he
      rcases cons_eq_split hsplit with ⟨-, rfl, -⟩ | ⟨rest, -, hrest⟩
      · cases he
      · rcases cons_eq_split hrest with ⟨-, -, rfl⟩ | ⟨later, -, hlater⟩
        · exact ⟨answer, by simp⟩
        · rw [hx.once e (by simp [hlater])] at he
          cases he }

end StreamService

end FieldSeal
