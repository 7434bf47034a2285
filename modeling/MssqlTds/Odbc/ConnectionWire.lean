import Mathlib.Algebra.Group.Nat.Defs
import Mathlib.Data.List.Pairwise
import Mathlib.Tactic.Common

/-!
# Ownership of a connection's client

A connection has one client.  An operation checks it out as a `WireLease` and hands the lease back;
a statement can keep the wire reserved between two calls.  Leases can come back late: after a
disconnect, or after a disconnect and a reconnect, when another client is installed.

`World` adds to the wire what the wire cannot see: the leases that are out, each with the session it
was issued in.  A lease is live if it was issued in the session that is installed now; one that is
dropped and never comes back stays live until the session ends.

* `Step`, `Run` : one operation, and any interleaving of operations.
* `Inv` : what ties owner, lease number and client together; `step_inv` keeps it.
* `single_ownership` : at most one lease is live, the client is parked just if there is a session
  and no live lease, nobody gets past a reservation, and a stale lease changes nothing.

A `debug_assert!` says that `install` is not called over a live session.  Nothing below depends on
it but the last part of `single_ownership`: such an install would end a reservation.
-/

namespace MssqlTds.Odbc

open List

/-! ### The wire -/

/-- Who has the wire: a statement, or a connection-scoped operation. -/
inductive WireOwner (Handle : Type) where
  | statement (handle : Handle)
  | connection
  deriving DecidableEq, Repr

inductive ClaimPolicy where
  /-- The wire must be unreserved. -/
  | idleOnly
  /-- The wire may also be reserved by the claimant itself. -/
  | idleOrOwn
  deriving DecidableEq, Repr

inductive ClaimError (Handle : Type) where
  | busy (owner : WireOwner Handle)
  | noClient
  deriving DecidableEq, Repr

inductive LeaseReturn where
  | release
  | keepReservation
  deriving DecidableEq, Repr

/-- A checked-out client. -/
structure WireLease (Client Handle : Type) where
  client : Client
  owner : WireOwner Handle
  id : UInt64

structure ConnectionWire (Client Handle : Type) where
  client : Option Client
  owner : Option (WireOwner Handle)
  lease : Option UInt64
  nextLeaseId : UInt64

namespace ConnectionWire

variable {Client Handle : Type}

def default : ConnectionWire Client Handle := ⟨none, none, none, 0⟩

def install (wire : ConnectionWire Client Handle) (client : Client) :
    ConnectionWire Client Handle :=
  { wire with client := some client, owner := none, lease := none }

/-- Any lease still out becomes stale. -/
def uninstall (wire : ConnectionWire Client Handle) :
    Option Client × ConnectionWire Client Handle :=
  (wire.client, { wire with client := none, owner := none, lease := none })

/-- The reservation that a returned lease leaves behind: none for a connection-scoped owner. -/
def reservation : LeaseReturn → WireOwner Handle → Option (WireOwner Handle)
  | .keepReservation, .statement handle => some (.statement handle)
  | _, _ => none

/-- False, closing the lease's client, if the lease's session has been torn down. -/
def restore (wire : ConnectionWire Client Handle) (lease : WireLease Client Handle)
    (how : LeaseReturn) : Bool × ConnectionWire Client Handle :=
  if wire.lease ≠ some lease.id then (false, wire)
  else (true, { wire with
    client := some lease.client, owner := reservation how lease.owner, lease := none })

variable {wire : ConnectionWire Client Handle} {lease : WireLease Client Handle}

theorem restore_live
    (h : wire.lease = some lease.id) (how : LeaseReturn) :
    wire.restore lease how = (true, { wire with
      client := some lease.client, owner := reservation how lease.owner, lease := none }) := by
  rw [restore, if_neg (not_not.mpr h)]

theorem restore_stale
    (h : wire.lease ≠ some lease.id) (how : LeaseReturn) :
    wire.restore lease how = (false, wire) := by
  rw [restore, if_pos h]

theorem reservation_ne_connection (how : LeaseReturn) (owner : WireOwner Handle) :
    reservation how owner ≠ some .connection := by
  cases how <;> cases owner <;> simp [reservation]

variable [DecidableEq Handle]

/-- No-op while a lease is out: its return decides the reservation. -/
def releaseReservation (wire : ConnectionWire Client Handle) (statement : Handle) :
    ConnectionWire Client Handle :=
  if wire.lease.isNone ∧ wire.owner = some (.statement statement) then { wire with owner := none }
  else wire

def check (wire : ConnectionWire Client Handle) (owner : WireOwner Handle) (policy : ClaimPolicy) :
    Except (ClaimError Handle) Unit :=
  if wire.lease.isSome then .error (.busy (wire.owner.getD owner))
  else match wire.owner with
    | some current =>
      if ¬ (policy = .idleOrOwn ∧ current = owner) then .error (.busy current)
      else if wire.client.isNone then .error .noClient
      else .ok ()
    | none => if wire.client.isNone then .error .noClient else .ok ()

def claim (wire : ConnectionWire Client Handle) (owner : WireOwner Handle) (policy : ClaimPolicy) :
    Except (ClaimError Handle) (WireLease Client Handle × ConnectionWire Client Handle) := do
  wire.check owner policy
  match wire.client with
  | none => .error .noClient
  | some client =>
    let id := wire.nextLeaseId + 1
    pure (⟨client, owner, id⟩, ⟨none, some owner, some id, id⟩)

/-- The parked client for a read that completes under the lock of the connection. -/
def parkedClientMut (wire : ConnectionWire Client Handle) (owner : WireOwner Handle)
    (policy : ClaimPolicy) : Except (ClaimError Handle) Client := do
  wire.check owner policy
  match wire.client with
  | none => .error .noClient
  | some client => pure client

/-- Only after `parkedClientMut` succeeded for the statement under the same lock. -/
def reserve (wire : ConnectionWire Client Handle) (statement : Handle) :
    ConnectionWire Client Handle :=
  { wire with owner := some (.statement statement) }

/-! ### What a check decides -/

variable {wire wire' : ConnectionWire Client Handle} {owner : WireOwner Handle}
  {policy : ClaimPolicy} {client : Client} {lease : WireLease Client Handle}

/-- The owner may have the client. -/
def Admits (wire : ConnectionWire Client Handle) (owner : WireOwner Handle)
    (policy : ClaimPolicy) : Prop :=
  wire.lease = none ∧ (wire.owner = none ∨ policy = .idleOrOwn ∧ wire.owner = some owner)

theorem check_eq_ok :
    wire.check owner policy = .ok () ↔ wire.Admits owner policy ∧ wire.client ≠ none := by
  unfold check Admits
  cases wire.lease <;> cases wire.owner <;> cases wire.client <;> simp
  all_goals split <;> simp_all

theorem claim_eq_ok :
    wire.claim owner policy = .ok (lease, wire') ↔
      wire.Admits owner policy ∧ wire.client = some lease.client ∧ lease.owner = owner ∧
        lease.id = wire.nextLeaseId + 1 ∧
        wire' = ⟨none, some owner, some lease.id, lease.id⟩ := by
  have hcheck := @check_eq_ok _ _ _ wire owner policy
  obtain ⟨client, leaseOwner, id⟩ := lease
  unfold claim
  cases h : wire.check owner policy with
  | error e =>
    rw [h] at hcheck
    simp only [reduceCtorEq, false_iff, not_and, not_not] at hcheck
    constructor
    · intro hok
      cases hok
    · rintro ⟨hadmits, hclient, -⟩
      rw [hcheck hadmits] at hclient
      cases hclient
  | ok _ =>
    obtain ⟨hadmits, hsome⟩ := hcheck.mp h
    obtain ⟨parked, hparked⟩ := Option.ne_none_iff_exists'.mp hsome
    simp only [hparked, bind, Except.bind, pure, Except.pure, Except.ok.injEq, Prod.mk.injEq,
      WireLease.mk.injEq, hadmits, true_and, Option.some.injEq]
    constructor
    · rintro ⟨⟨rfl, rfl, rfl⟩, rfl⟩
      exact ⟨rfl, rfl, rfl, rfl⟩
    · rintro ⟨rfl, rfl, rfl, rfl⟩
      exact ⟨⟨rfl, rfl, rfl⟩, rfl⟩

theorem parkedClientMut_eq_ok :
    wire.parkedClientMut owner policy = .ok client ↔
      wire.Admits owner policy ∧ wire.client = some client := by
  have hcheck := @check_eq_ok _ _ _ wire owner policy
  unfold parkedClientMut
  cases h : wire.check owner policy with
  | error e =>
    rw [h] at hcheck
    simp only [reduceCtorEq, false_iff, not_and, not_not] at hcheck
    constructor
    · intro hok
      cases hok
    · rintro ⟨hadmits, hclient⟩
      rw [hcheck hadmits] at hclient
      cases hclient
  | ok _ =>
    obtain ⟨hadmits, hsome⟩ := hcheck.mp h
    obtain ⟨parked, hparked⟩ := Option.ne_none_iff_exists'.mp hsome
    simp [hparked, hadmits, bind, Except.bind, pure, Except.pure]

end ConnectionWire

/-! ### Any number of owners -/

/-- A lease that is out, with the session it was issued in. -/
structure Issued (Handle : Type) where
  owner : WireOwner Handle
  id : UInt64
  session : ℕ

/-- The wire, the leases that are out, and the number of claims that succeeded. -/
structure World (Client Handle : Type) where
  wire : ConnectionWire Client Handle
  /-- Counts installs and uninstalls. -/
  session : ℕ
  installed : Bool
  out : List (Issued Handle)
  claims : ℕ

inductive Event (Client Handle : Type) where
  | install (client : Client)
  | uninstall
  | claim (owner : WireOwner Handle) (policy : ClaimPolicy)
  | parked (owner : WireOwner Handle) (policy : ClaimPolicy)
  | reserve (statement : Handle)
  | release (statement : Handle)
  | restore (lease : Issued Handle) (how : LeaseReturn)

namespace World

variable {Client Handle : Type}

def start : World Client Handle := ⟨.default, 0, false, [], 0⟩

/-- The lease was issued in the session that is installed. -/
def Live (w : World Client Handle) (lease : Issued Handle) : Prop :=
  lease ∈ w.out ∧ lease.session = w.session ∧ w.installed = true

/-! ### The invariant -/

/-- Owner, lease number and client fit the leases that are out. -/
structure Inv (w : World Client Handle) : Prop where
  counter : w.wire.nextLeaseId.toNat = w.claims
  ids : ∀ l ∈ w.out, l.id.toNat ≤ w.claims
  sessions : ∀ l ∈ w.out, l.session ≤ w.session
  distinct : w.out.Pairwise fun a b => a.id ≠ b.id
  idle : w.wire.lease = none →
    (∀ l, ¬ w.Live l) ∧ (w.wire.client.isSome = true ↔ w.installed = true)
  leased : ∀ id, w.wire.lease = some id → w.wire.client = none ∧
    ∃ l, w.Live l ∧ l.id = id ∧ w.wire.owner = some l.owner ∧ ∀ l', w.Live l' → l' = l
  connection : w.wire.owner = some .connection → w.wire.lease ≠ none

variable {w : World Client Handle}

theorem start_inv : (start : World Client Handle).Inv := by
  refine ⟨rfl, ?_, ?_, List.Pairwise.nil, ?_, ?_, ?_⟩
  · intro l hl
    cases hl
  · intro l hl
    cases hl
  · intro _
    exact ⟨fun l h => absurd h.1 not_mem_nil, by simp [start, ConnectionWire.default]⟩
  · intro id h
    cases h
  · intro h
    cases h

/-- A change of session leaves no lease live. -/
theorem not_live_of_session (hinv : w.Inv) {session : ℕ} {installed : Bool}
    {wire : ConnectionWire Client Handle} (h : w.session < session) (l : Issued Handle) :
    ¬ Live { w with wire, session, installed } l := by
  rintro ⟨hmem, hsession, -⟩
  have hle := hinv.sessions l hmem
  change l.session = session at hsession
  omega

theorem Inv.new_session (hinv : w.Inv) {session : ℕ} {installed : Bool}
    {wire : ConnectionWire Client Handle} (h : w.session < session)
    (hcounter : wire.nextLeaseId = w.wire.nextLeaseId) (hlease : wire.lease = none)
    (howner : wire.owner = none) (hclient : wire.client.isSome = true ↔ installed = true) :
    Inv { w with wire, session, installed } where
  counter := by rw [← hinv.counter, ← hcounter]
  ids := hinv.ids
  sessions l hl := Nat.le_of_lt (Nat.lt_of_le_of_lt (hinv.sessions l hl) h)
  distinct := hinv.distinct
  idle _ := ⟨not_live_of_session hinv h, hclient⟩
  leased id hid := by
    rw [hlease] at hid
    cases hid
  connection hconnection := by
    rw [howner] at hconnection
    cases hconnection

/-- A change of owner while no lease is out. -/
theorem Inv.idle_owner (hinv : w.Inv) (hlease : w.wire.lease = none)
    {owner : Option (WireOwner Handle)} {client : Option Client}
    (howner : owner ≠ some .connection) (hclient : client.isSome = w.wire.client.isSome) :
    Inv { w with wire := { w.wire with owner, client } } where
  counter := hinv.counter
  ids := hinv.ids
  sessions := hinv.sessions
  distinct := hinv.distinct
  idle _ := ⟨(hinv.idle hlease).1, by rw [← (hinv.idle hlease).2, ← hclient]⟩
  leased id hid := by
    rw [hlease] at hid
    cases hid
  connection hconnection := absurd hconnection howner

/-- The leases that are out have different numbers. -/
theorem Inv.eq_of_id (hinv : w.Inv) {l l' : Issued Handle} (hl : l ∈ w.out) (hl' : l' ∈ w.out)
    (h : l.id = l'.id) : l = l' := by
  by_contra hne
  have : Std.Symm fun a b : Issued Handle => a.id ≠ b.id := ⟨fun a b => .symm⟩
  exact hinv.distinct.forall hl hl' hne h

/-- **A lease is accepted just if it is live.** -/
theorem Inv.lease_eq_iff_live (hinv : w.Inv) {l : Issued Handle} (hl : l ∈ w.out) :
    w.wire.lease = some l.id ↔ w.Live l := by
  constructor
  · intro h
    obtain ⟨-, l', hlive, hid, -⟩ := hinv.leased l.id h
    rwa [← hinv.eq_of_id hlive.1 hl hid]
  · intro hlive
    cases h : w.wire.lease with
    | none => exact absurd hlive ((hinv.idle h).1 l)
    | some id =>
      obtain ⟨-, l', -, hid, -, hunique⟩ := hinv.leased id h
      rw [hunique l hlive, hid]

theorem Inv.restore (hinv : w.Inv) {lease : Issued Handle} {before after : List (Issued Handle)}
    (client : Client) (how : LeaseReturn) (hout : w.out = before ++ lease :: after) :
    Inv { w with
      wire := (w.wire.restore ⟨client, lease.owner, lease.id⟩ how).2
      out := before ++ after } := by
  have hsub : ∀ l ∈ before ++ after, l ∈ w.out := by
    intro l hl
    rw [hout]
    rcases mem_append.mp hl with hl | hl
    · exact mem_append_left _ hl
    · exact mem_append_right _ (mem_cons_of_mem _ hl)
  have hmem : lease ∈ w.out := by
    rw [hout]
    exact mem_append_right _ mem_cons_self
  have hdistinct := hinv.distinct
  rw [hout] at hdistinct
  have hsublist : (before ++ after).Sublist (before ++ lease :: after) :=
    List.Sublist.append_left (sublist_cons_self lease after) before
  -- no lease that stays out has the number of the one that came back
  have hother : ∀ l ∈ before ++ after, l.id ≠ lease.id := by
    rw [pairwise_append, pairwise_cons] at hdistinct
    intro l hl
    rcases mem_append.mp hl with hl | hl
    · exact hdistinct.2.2 l hl lease mem_cons_self
    · exact .symm (hdistinct.2.1.1 l hl)
  by_cases hlive : w.wire.lease = some lease.id
  · obtain ⟨-, l, hl, hid, howner, hunique⟩ := hinv.leased _ hlive
    rw [ConnectionWire.restore_live hlive]
    refine ⟨hinv.counter, fun l hl => hinv.ids l (hsub l hl),
      fun l hl => hinv.sessions l (hsub l hl), hdistinct.sublist hsublist, ?_, ?_, ?_⟩
    · intro _
      refine ⟨?_, by simp [hl.2.2]⟩
      rintro l' ⟨hl', hsession, hinstalled⟩
      have heq := hunique l' ⟨hsub l' hl', hsession, hinstalled⟩
      exact hother l' hl' (by rw [heq, hid])
    · intro id h
      cases h
    · intro hconnection
      exact absurd hconnection (ConnectionWire.reservation_ne_connection how lease.owner)
  · rw [ConnectionWire.restore_stale hlive]
    refine ⟨hinv.counter, fun l hl => hinv.ids l (hsub l hl),
      fun l hl => hinv.sessions l (hsub l hl), hdistinct.sublist hsublist, ?_, ?_, hinv.connection⟩
    · intro hidle
      refine ⟨?_, (hinv.idle hidle).2⟩
      rintro l ⟨hl, hrest⟩
      exact (hinv.idle hidle).1 l ⟨hsub l hl, hrest⟩
    · intro id h
      obtain ⟨hclient, l, hl, hid, howner, hunique⟩ := hinv.leased id h
      refine ⟨hclient, l, ⟨?_, hl.2⟩, hid, howner, ?_⟩
      · have hlout := hl.1
        rw [hout] at hlout
        rcases mem_append.mp hlout with hl' | hl'
        · exact mem_append_left _ hl'
        · rcases mem_cons.mp hl' with rfl | hl'
          · change w.wire.lease = some id at h
            exact absurd (hid ▸ h) hlive
          · exact mem_append_right _ hl'
      · rintro l' ⟨hl', hrest⟩
        exact hunique l' ⟨hsub l' hl', hrest⟩

/-! ### Operations -/

variable [DecidableEq Handle]

/-- One operation.  Whoever has the client, parked or leased, may change it. -/
inductive Step : World Client Handle → Event Client Handle → World Client Handle → Prop
  | install (w : World Client Handle) (client : Client) :
      Step w (.install client)
        { w with wire := w.wire.install client, session := w.session + 1, installed := true }
  | uninstall (w : World Client Handle) :
      Step w .uninstall
        { w with wire := w.wire.uninstall.2, session := w.session + 1, installed := false }
  | claim {w : World Client Handle} {owner : WireOwner Handle} {policy : ClaimPolicy}
      {lease : WireLease Client Handle} {wire : ConnectionWire Client Handle}
      (ok : w.wire.claim owner policy = .ok (lease, wire)) :
      Step w (.claim owner policy)
        { w with
          wire
          out := ⟨lease.owner, lease.id, w.session⟩ :: w.out
          claims := w.claims + 1 }
  | refused {w : World Client Handle} {owner : WireOwner Handle} {policy : ClaimPolicy}
      {e : ClaimError Handle} (error : w.wire.claim owner policy = .error e) :
      Step w (.claim owner policy) w
  | parked {w : World Client Handle} {owner : WireOwner Handle} {policy : ClaimPolicy}
      {client : Client} (client' : Client)
      (ok : w.wire.parkedClientMut owner policy = .ok client) :
      Step w (.parked owner policy) { w with wire := { w.wire with client := some client' } }
  | notParked {w : World Client Handle} {owner : WireOwner Handle} {policy : ClaimPolicy}
      {e : ClaimError Handle} (error : w.wire.parkedClientMut owner policy = .error e) :
      Step w (.parked owner policy) w
  -- right after a parked access of the statement, which leaves owner and lease alone
  | reserve {w : World Client Handle} {statement : Handle} {policy : ClaimPolicy} {client : Client}
      (ok : w.wire.parkedClientMut (.statement statement) policy = .ok client) :
      Step w (.reserve statement) { w with wire := w.wire.reserve statement }
  | release (w : World Client Handle) (statement : Handle) :
      Step w (.release statement) { w with wire := w.wire.releaseReservation statement }
  | restore {w : World Client Handle} {lease : Issued Handle} {before after : List (Issued Handle)}
      (client : Client) (how : LeaseReturn) (out : w.out = before ++ lease :: after) :
      Step w (.restore lease how)
        { w with
          wire := (w.wire.restore ⟨client, lease.owner, lease.id⟩ how).2
          out := before ++ after }

/-- Any interleaving of operations. -/
inductive Run : World Client Handle → List (Event Client Handle) → World Client Handle → Prop
  | refl (w : World Client Handle) : Run w [] w
  | cons {w w' w'' : World Client Handle} {ev : Event Client Handle}
      {evs : List (Event Client Handle)} (head : Step w ev w') (tail : Run w' evs w'') :
      Run w (ev :: evs) w''

variable {w' : World Client Handle} {ev : Event Client Handle} {owner : WireOwner Handle}

theorem Inv.claim (hinv : w.Inv) {policy : ClaimPolicy}
    {lease : WireLease Client Handle} {wire : ConnectionWire Client Handle}
    (hok : w.wire.claim owner policy = .ok (lease, wire)) (hbound : w.claims + 1 < 2 ^ 64) :
    Inv { w with
      wire
      out := ⟨lease.owner, lease.id, w.session⟩ :: w.out
      claims := w.claims + 1 } := by
  obtain ⟨⟨hidle, -⟩, hclient, rfl, hid, rfl⟩ := ConnectionWire.claim_eq_ok.mp hok
  obtain ⟨hnone, hparked⟩ := hinv.idle hidle
  have hinstalled : w.installed = true := hparked.mp (by rw [hclient]; rfl)
  -- below the bound the counter does not wrap, so the number is new
  have hnew : lease.id.toNat = w.claims + 1 := by
    rw [hid, UInt64.toNat_add, hinv.counter]
    exact Nat.mod_eq_of_lt hbound
  refine ⟨hnew, ?_, ?_, ?_, ?_, ?_, ?_⟩
  · intro l hl
    rcases mem_cons.mp hl with rfl | hl
    · exact Nat.le_of_eq hnew
    · exact Nat.le_succ_of_le (hinv.ids l hl)
  · intro l hl
    rcases mem_cons.mp hl with rfl | hl
    · exact Nat.le_refl _
    · exact hinv.sessions l hl
  · refine List.Pairwise.cons ?_ hinv.distinct
    intro l hl heq
    have hle := hinv.ids l hl
    rw [← heq] at hle
    change lease.id.toNat ≤ w.claims at hle
    omega
  · intro h
    cases h
  · intro id h
    cases h
    refine ⟨rfl, ⟨lease.owner, lease.id, w.session⟩, ⟨mem_cons_self, rfl, hinstalled⟩, rfl,
      rfl, ?_⟩
    rintro l ⟨hl, hsession, hlive⟩
    rcases mem_cons.mp hl with rfl | hl
    · rfl
    · exact absurd ⟨hl, hsession, hlive⟩ (hnone l)
  · intro _ h
    cases h

/-- **Every operation keeps the invariant**, as long as the lease numbers do not wrap. -/
theorem step_inv (hinv : w.Inv) (hstep : Step w ev w') (hbound : w'.claims < 2 ^ 64) : w'.Inv := by
  cases hstep with
  | install client =>
    exact hinv.new_session (Nat.lt_succ_self _) rfl rfl rfl (by simp [ConnectionWire.install])
  | uninstall =>
    exact hinv.new_session (Nat.lt_succ_self _) rfl rfl rfl (by simp [ConnectionWire.uninstall])
  | claim ok => exact hinv.claim ok hbound
  | refused error => exact hinv
  | parked client' ok =>
    obtain ⟨⟨hidle, -⟩, hclient⟩ := ConnectionWire.parkedClientMut_eq_ok.mp ok
    refine hinv.idle_owner hidle ?_ (by rw [hclient]; rfl)
    intro hconnection
    exact hinv.connection hconnection hidle
  | notParked error => exact hinv
  | reserve ok =>
    obtain ⟨⟨hidle, -⟩, -⟩ := ConnectionWire.parkedClientMut_eq_ok.mp ok
    exact hinv.idle_owner hidle (by simp) rfl
  | release statement =>
    unfold ConnectionWire.releaseReservation
    split
    · next h => exact hinv.idle_owner (by simpa using h.1) (by simp) rfl
    · exact hinv
  | restore client how out => exact hinv.restore client how out

theorem Step.claims_le (hstep : Step w ev w') : w.claims ≤ w'.claims := by
  cases hstep with
  | claim ok => exact Nat.le_succ _
  | _ => exact Nat.le_refl _

variable {evs : List (Event Client Handle)}

theorem Run.claims_le (hrun : Run w evs w') :
    w.claims ≤ w'.claims := by
  induction hrun with
  | refl w => exact Nat.le_refl _
  | cons head _ ih => exact Nat.le_trans head.claims_le ih

theorem run_inv (hinv : w.Inv) (hrun : Run w evs w')
    (hbound : w'.claims < 2 ^ 64) : w'.Inv := by
  induction hrun with
  | refl w => exact hinv
  | cons head tail ih =>
    exact ih (step_inv hinv head (Nat.lt_of_le_of_lt tail.claims_le hbound)) hbound

/-! ### Reservations -/

/-- The statement keeps the wire reserved and the client is parked. -/
structure Kept (w : World Client Handle) (statement : Handle) : Prop where
  owner : w.wire.owner = some (.statement statement)
  lease : w.wire.lease = none
  client : w.wire.client ≠ none

/-- The operation ends a reservation of the statement: its release, its claim, an uninstall, or an
install over the session, which `install` itself asserts away. -/
def Ends (w : World Client Handle) (statement : Handle) : Event Client Handle → Prop
  | .release h => h = statement
  | .claim owner policy =>
    owner = .statement statement ∧ ∃ r, w.wire.claim owner policy = .ok r
  | .uninstall => True
  | .install _ => w.wire.client ≠ none ∨ w.wire.lease ≠ none
  | _ => False

variable {statement : Handle}

omit [DecidableEq Handle] in
theorem Kept.admits (hkept : w.Kept statement)
    {policy : ClaimPolicy} (h : w.wire.Admits owner policy) : owner = .statement statement := by
  rcases h.2 with hnone | ⟨-, howner⟩
  · rw [hkept.owner] at hnone
    cases hnone
  · rw [hkept.owner] at howner
    exact (Option.some.inj howner).symm

theorem Kept.step (hkept : w.Kept statement) (hstep : Step w ev w')
    (hends : ¬ w.Ends statement ev) : w'.Kept statement := by
  cases hstep with
  | install client => exact absurd (.inl hkept.client) hends
  | uninstall => exact absurd trivial hends
  | claim ok =>
    have hadmits := (ConnectionWire.claim_eq_ok.mp ok).1
    exact absurd ⟨hkept.admits hadmits, _, ok⟩ hends
  | refused error => exact hkept
  | parked client' ok => exact ⟨hkept.owner, hkept.lease, by simp⟩
  | notParked error => exact hkept
  | @reserve h _ _ ok =>
    have hadmits := (ConnectionWire.parkedClientMut_eq_ok.mp ok).1
    exact ⟨congrArg some (hkept.admits hadmits), hkept.lease, hkept.client⟩
  | release h =>
    have hne : h ≠ statement := hends
    have howner : w.wire.owner ≠ some (.statement h) := by
      rw [hkept.owner]
      simpa using hne.symm
    rw [ConnectionWire.releaseReservation, if_neg fun hreleased => howner hreleased.2]
    exact hkept
  | @restore lease _ _ client how out =>
    -- no lease is live, so this one is stale
    rw [ConnectionWire.restore_stale (by rw [hkept.lease]; simp)]
    exact ⟨hkept.owner, hkept.lease, hkept.client⟩

/-- A run none of whose operations ends the reservation. -/
inductive Keeps (statement : Handle) :
    World Client Handle → List (Event Client Handle) → World Client Handle → Prop
  | refl (w : World Client Handle) : Keeps statement w [] w
  | cons {w w' w'' : World Client Handle} {ev : Event Client Handle}
      {evs : List (Event Client Handle)} (head : Step w ev w') (ends : ¬ w.Ends statement ev)
      (tail : Keeps statement w' evs w'') : Keeps statement w (ev :: evs) w''

theorem Keeps.kept
    (hrun : Keeps statement w evs w') (hkept : w.Kept statement) : w'.Kept statement := by
  induction hrun with
  | refl w => exact hkept
  | cons head ends _ ih => exact ih (hkept.step head ends)

/-- **Single ownership of the wire**, at every point of every interleaving with fewer than `2 ^ 64`
claims:

* at most one lease is live, and the client is parked just if a session is installed and no lease is
  live;
* a claim or a parked access succeeds only if no lease is live and the wire is unreserved, or
  reserved by the claimant and the policy allows that;
* a connection-scoped owner is recorded only while its lease is live;
* a lease is taken back just if it is live, and a stale one changes nothing;
* when a statement returns its lease and keeps the reservation, nobody else gets the client until
  the reservation ends. -/
theorem single_ownership {evs : List (Event Client Handle)} (hrun : Run start evs w)
    (hbound : w.claims < 2 ^ 64) :
    (∀ l l', w.Live l → w.Live l' → l = l') ∧
    (w.wire.client.isSome = true ↔ w.installed = true ∧ ∀ l, ¬ w.Live l) ∧
    (∀ owner policy, ((∃ r, w.wire.claim owner policy = .ok r) ∨
        ∃ client, w.wire.parkedClientMut owner policy = .ok client) →
      (∀ l, ¬ w.Live l) ∧
        (w.wire.owner = none ∨ policy = .idleOrOwn ∧ w.wire.owner = some owner)) ∧
    (w.wire.owner = some .connection → ∃ l, w.Live l ∧ l.owner = .connection) ∧
    (∀ l ∈ w.out, ∀ client how,
      ((w.wire.restore ⟨client, l.owner, l.id⟩ how).1 = true ↔ w.Live l) ∧
        (¬ w.Live l → (w.wire.restore ⟨client, l.owner, l.id⟩ how).2 = w.wire)) ∧
    ∀ l statement, w.Live l → l.owner = .statement statement → ∀ w₁,
      Step w (.restore l .keepReservation) w₁ → ∀ evs' w₂, Keeps statement w₁ evs' w₂ →
        ∀ owner, owner ≠ .statement statement → ∀ policy,
          (∀ r, w₂.wire.claim owner policy ≠ .ok r) ∧
            ∀ client, w₂.wire.parkedClientMut owner policy ≠ .ok client := by
  have hinv := run_inv start_inv hrun hbound
  have hidle : (∀ l, ¬ w.Live l) ↔ w.wire.lease = none := by
    constructor
    · intro hnone
      cases h : w.wire.lease with
      | none => rfl
      | some id =>
        obtain ⟨-, l, hlive, -⟩ := hinv.leased id h
        exact absurd hlive (hnone l)
    · intro h
      exact (hinv.idle h).1
  refine ⟨?_, ?_, ?_, ?_, ?_, ?_⟩
  · intro l l' hl hl'
    cases h : w.wire.lease with
    | none => exact absurd hl ((hinv.idle h).1 l)
    | some id =>
      obtain ⟨-, l₀, -, -, -, hunique⟩ := hinv.leased id h
      rw [hunique l hl, hunique l' hl']
  · rw [hidle]
    cases h : w.wire.lease with
    | none => simp [(hinv.idle h).2]
    | some id => simp [(hinv.leased id h).1]
  · intro owner policy hok
    have hadmits : w.wire.Admits owner policy := by
      rcases hok with ⟨⟨lease, wire⟩, hclaim⟩ | ⟨client, hparked⟩
      · exact (ConnectionWire.claim_eq_ok.mp hclaim).1
      · exact (ConnectionWire.parkedClientMut_eq_ok.mp hparked).1
    exact ⟨hidle.mpr hadmits.1, hadmits.2⟩
  · intro hconnection
    obtain ⟨id, hid⟩ := Option.ne_none_iff_exists'.mp (hinv.connection hconnection)
    obtain ⟨-, l, hlive, -, howner, -⟩ := hinv.leased id hid
    rw [hconnection] at howner
    exact ⟨l, hlive, (Option.some.inj howner).symm⟩
  · intro l hl client how
    rw [← hinv.lease_eq_iff_live hl]
    by_cases h : w.wire.lease = some l.id
    · rw [ConnectionWire.restore_live h]
      exact ⟨iff_of_true rfl h, fun hne => absurd h hne⟩
    · rw [ConnectionWire.restore_stale h]
      exact ⟨iff_of_false (by simp) h, fun _ => rfl⟩
  · intro l statement hlive howner w₁ hstep evs' w₂ hkeeps owner hne policy
    have hkept₁ : w₁.Kept statement := by
      cases hstep with
      | restore client how out =>
        have hlease := (hinv.lease_eq_iff_live hlive.1).mpr hlive
        rw [ConnectionWire.restore_live hlease, howner]
        exact ⟨rfl, rfl, by simp⟩
    have hkept := hkeeps.kept hkept₁
    refine ⟨?_, ?_⟩
    · rintro ⟨lease, wire⟩ hok
      exact hne (hkept.admits (ConnectionWire.claim_eq_ok.mp hok).1)
    · intro client hok
      exact hne (hkept.admits (ConnectionWire.parkedClientMut_eq_ok.mp hok).1)

/-- A lease that comes back after a reconnect. -/
theorem single_ownership_reconnect :
    let w : World Unit ℕ := ⟨⟨some (), none, none, 1⟩, 3, true, [⟨.statement 7, 1, 1⟩], 1⟩
    Run start [.install (), .claim (.statement 7) .idleOrOwn, .uninstall, .install ()] w ∧
      w.claims < 2 ^ 64 ∧ (w.wire.restore ⟨(), .statement 7, 1⟩ .release).2 = w.wire := by
  intro w
  have hrun : Run start
      [.install (), .claim (.statement 7) .idleOrOwn, .uninstall, .install ()] w :=
    .cons (.install _ ()) (.cons (.claim rfl) (.cons (.uninstall _) (.cons (.install _ ())
      (.refl _))))
  have hstale : ¬ w.Live ⟨.statement 7, 1, 1⟩ := by
    rintro ⟨-, hsession, -⟩
    cases hsession
  exact ⟨hrun, by decide, ((single_ownership hrun (by decide)).2.2.2.2.1 ⟨.statement 7, 1, 1⟩
    mem_cons_self () .release).2 hstale⟩

/-! ### Progress -/

/-- The operation ends what keeps others from the client: the live lease, or the reservation. -/
def Unblocks (w : World Client Handle) : Event Client Handle → Prop
  | .restore l how => w.Live l ∧ how = .release
  | .release statement => w.wire.owner = some (.statement statement)
  | _ => False

/-- **Only a lease or a reservation keeps the wire.**  While a session is installed, an owner can
claim the client at once or after one operation that unblocks the wire, which is possible. -/
theorem claimable_or_unblocked (hrun : Run start evs w)
    (hbound : w.claims < 2 ^ 64) (hinstalled : w.installed = true) (client : Client)
    (owner : WireOwner Handle) (policy : ClaimPolicy) :
    (∃ r, w.wire.claim owner policy = .ok r) ∨
      ∃ ev w', w.Unblocks ev ∧ Step w ev w' ∧ ∃ r, w'.wire.claim owner policy = .ok r := by
  have hinv := run_inv start_inv hrun hbound
  have hfree {wire : ConnectionWire Client Handle} {client : Client} (hlease : wire.lease = none)
      (howner : wire.owner = none) (hclient : wire.client = some client) :
      ∃ r, wire.claim owner policy = .ok r :=
    ⟨(⟨client, owner, _⟩, _), ConnectionWire.claim_eq_ok.mpr
      ⟨⟨hlease, .inl howner⟩, hclient, rfl, rfl, rfl⟩⟩
  cases hlease : w.wire.lease with
  | some id =>
    obtain ⟨-, l, hlive, rfl, -⟩ := hinv.leased id hlease
    obtain ⟨before, after, hout⟩ := append_of_mem hlive.1
    refine .inr ⟨.restore l .release, _, ⟨hlive, rfl⟩, .restore client .release hout, ?_⟩
    rw [ConnectionWire.restore_live hlease]
    exact hfree rfl rfl rfl
  | none =>
    obtain ⟨parked, hparked⟩ := Option.isSome_iff_exists.mp ((hinv.idle hlease).2.mpr hinstalled)
    cases howner : w.wire.owner with
    | none => exact .inl (hfree hlease howner hparked)
    | some current =>
      cases current with
      | connection => exact absurd hlease (hinv.connection howner)
      | statement h =>
        refine .inr ⟨.release h, _, howner, .release w h, ?_⟩
        rw [ConnectionWire.releaseReservation, if_pos ⟨by rw [hlease]; rfl, howner⟩]
        exact hfree hlease rfl hparked

/-- The connection behind the lease of a statement. -/
theorem claimable_or_unblocked_leased :
    let w : World Unit ℕ :=
      ⟨⟨none, some (.statement 7), some 1, 1⟩, 1, true, [⟨.statement 7, 1, 1⟩], 1⟩
    (∃ r, w.wire.claim .connection .idleOnly = .ok r) ∨
      ∃ ev w', w.Unblocks ev ∧ Step w ev w' ∧ ∃ r, w'.wire.claim .connection .idleOnly = .ok r := by
  intro w
  have hrun : Run start [.install (), .claim (.statement 7) .idleOrOwn] w :=
    .cons (.install _ ()) (.cons (.claim rfl) (.refl _))
  exact claimable_or_unblocked hrun (by decide) rfl () .connection .idleOnly

end World

end MssqlTds.Odbc
