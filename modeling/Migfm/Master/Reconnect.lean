import Migfm.Library.Runs

/-! The outgoing connections of core/network.c: `create_connects` once, then closes and
`create_reconnects` in any order. -/
namespace Migfm.Master.Reconnect
open Library.Runs

/-- `create_connect_socket` asserts the port. -/
structure ConnectConfig where
  bindremote : List UInt8
  port : Nat
  valid : 0 < port ∧ port < 65536

structure Config where
  remotes : List ConnectConfig
  distinct : (remotes.map (·.port)).Nodup
  ncount_connect : Nat

/-- An adapter of a connection to `remote`. -/
structure SockAdapter where
  remote : ConnectConfig
  port : Nat

/-- `connect_pool` is `none` before it is allocated; a slot is `none` for `NULL`. An adapter that has
been freed is `none` in `adapters`, and another one never gets its number. -/
structure Server where
  connect_pool : Option (List (Option Nat))
  adapters : Nat → Option SockAdapter
  count : Nat

namespace Server

def Init : Server := ⟨none,fun _ => none,0⟩

/-- The adapter a slot of the pool refers to. -/
def held (srv : Server) (index : Nat) : Option Nat := (srv.connect_pool.bind (·[index]?)).join

def record (srv : Server) (index sa : Nat) : Server :=
  {srv with connect_pool := srv.connect_pool.map (·.set index (some sa))}

def write (srv : Server) (sa : Nat) (adapter : Option SockAdapter) : Server :=
  {srv with adapters := Function.update srv.adapters sa adapter}

/-- What is allocated is freed again if the connection fails. -/
def create_connect_socket (srv : Server) (remote : ConnectConfig) (connected : Bool) : Option Nat × Server :=
  if connected then (some srv.count,{srv.write srv.count (some ⟨remote,remote.port⟩) with count := srv.count + 1})
  else (none,srv)

def destroy_sock_adapter (srv : Server) (sa : Nat) : Server := srv.write sa none

end Server

variable (conf : Config) (connected : ConnectConfig → Bool)

/-- The loop of `create_connects`. There are no slots behind the `ncount_connect` ones. -/
def connects (srv : Server) (n : Nat) : List ConnectConfig → Option Server
  | [] => some srv
  | p::remotes => match srv.create_connect_socket p (connected p) with
    | (none,srv) => connects srv n remotes
    | (some sa,srv) => if n < conf.ncount_connect then connects (srv.record n sa) (n + 1) remotes else none

def create_connects (srv : Server) : Option Server :=
  if conf.remotes = [] then some srv
  else connects conf connected {srv with connect_pool := some (List.replicate conf.ncount_connect none)} 0 conf.remotes

/-- The loop of `create_reconnects`, with what it returns; `none` when there is no adapter at the slot.
`index` stays where it is when the ports agree. -/
def reconnects (srv : Server) (index : Nat) : List ConnectConfig → Option (Int × Server)
  | [] => some (1,srv)
  | p::remotes => match srv.held index with
    | none => none
    | some tmp_sa => match srv.adapters tmp_sa with
      | none => none
      | some adapter =>
        if adapter.port ≠ p.port then
          match srv.create_connect_socket p (connected p) with
          | (none,srv) => some (-1,srv.write tmp_sa (some {adapter with port := 0}))
          | (some sa,srv) => reconnects (srv.record index sa) (index + 1) remotes
        else reconnects srv index remotes

def create_reconnects (srv : Server) : Option (Int × Server) :=
  if conf.remotes = [] then some (0,srv)
  else if srv.connect_pool = none then some (-1,srv)
  else reconnects connected srv 0 conf.remotes

/-- The last reference to a connection is dropped, or `create_reconnects` is called. -/
inductive Event
  | sock_conn_decref (sa : Nat)
  | create_reconnects (connected : ConnectConfig → Bool)

def step (srv : Server) : Event → Option Server
  | .sock_conn_decref sa => some (srv.destroy_sock_adapter sa)
  | .create_reconnects connected => (create_reconnects conf connected srv).map (·.2)

/-! ### What is promised -/

namespace Server

/-- A live connection to the remote. -/
def Connected (srv : Server) (sa : Nat) (remote : ConnectConfig) : Prop :=
  ∃ adapter, srv.adapters sa = some adapter ∧ adapter.remote = remote

def Single (srv : Server) : Prop := ∀ sa other remote, srv.Connected sa remote → srv.Connected other remote → sa = other

/-- No slot with a live connection is overwritten. -/
def Kept (srv next : Server) : Prop :=
  ∀ index sa, srv.held index = some sa → (srv.adapters sa).isSome → next.held index = some sa

def Full (srv : Server) : Prop := ∀ remote ∈ conf.remotes, ∃ sa, (∃ index, srv.held index = some sa) ∧
  srv.Connected sa remote ∧ ∀ other, srv.Connected other remote → other = sa

end Server

/-- There is an outcome, so only slots with an adapter are read. `create_reconnects` returns 1 when none of
its connects has failed. -/
def Right (srv : Server) (event : Event) : Prop :=
  (∃ next, step conf srv event = some next ∧ srv.Kept next ∧ next.Single) ∧
    ∀ connected next, event = .create_reconnects connected → create_reconnects conf connected srv = some (1,next) → next.Full conf

/-- The first slot has a live connection, and the first remote with another port than its adapter's
does not connect. -/
def Fits (srv : Server) : Event → Prop
  | .sock_conn_decref _ => True
  | .create_reconnects connected => conf.remotes = [] ∨ ∃ sa adapter, srv.held 0 = some sa ∧ srv.adapters sa = some adapter ∧
      ∀ remote, (conf.remotes.find? fun p => adapter.port ≠ p.port) = some remote → connected remote = false

/-! ### The adapters -/

namespace Server
variable {srv : Server}

theorem write_self (srv : Server) (sa : Nat) (adapter : Option SockAdapter) : (srv.write sa adapter).adapters sa = adapter := by
  simp only [write,Function.update_self]

theorem write_ne (srv : Server) {sa other : Nat} (apart : other ≠ sa) (adapter : Option SockAdapter) :
    (srv.write sa adapter).adapters other = srv.adapters other := by
  simp only [write,Function.update_of_ne apart]

theorem held_write (srv : Server) (sa : Nat) (adapter : Option SockAdapter) (index : Nat) :
    (srv.write sa adapter).held index = srv.held index := rfl

theorem held_record (srv : Server) {index other : Nat} (apart : other ≠ index) (sa : Nat) :
    (srv.record index sa).held other = srv.held other := by
  cases pool : srv.connect_pool with
  | none => simp [held,record,pool]
  | some slots => simp [held,record,pool,List.getElem?_set_ne (Ne.symm apart)]

theorem held_record_self {index old : Nat} (slot : srv.held index = some old) (sa : Nat) :
    (srv.record index sa).held index = some sa := by
  cases pool : srv.connect_pool with
  | none => simp [held,pool] at slot
  | some slots =>
    have inside : index < slots.length := by
      by_contra beyond
      simp [held,pool,List.getElem?_eq_none (Nat.le_of_not_lt beyond)] at slot
    simp [held,record,pool,inside]

theorem Connected.port_remote {sa : Nat} {remote : ConnectConfig} (live : srv.Connected sa remote) : (srv.adapters sa).isSome := by
  obtain ⟨adapter,known,_⟩ := live
  rw [known]
  rfl

theorem connected_write {sa other : Nat} {adapter : SockAdapter} {remote : ConnectConfig} :
    (srv.write sa (some adapter)).Connected other remote ↔
      (other = sa ∧ adapter.remote = remote) ∨ (other ≠ sa ∧ srv.Connected other remote) := by
  by_cases same : other = sa
  · subst same
    simp [Connected,write_self]
  · simp [Connected,write_ne srv same,same]

end Server

/-- What every state of a run has in common. -/
structure Inv (srv : Server) : Prop where
  peers : ∀ sa adapter, srv.adapters sa = some adapter →
    adapter.remote ∈ conf.remotes ∧ (adapter.port = adapter.remote.port ∨ adapter.port = 0)
  counted : ∀ sa, (srv.adapters sa).isSome → sa < srv.count
  single : srv.Single
  allocated : conf.remotes ≠ [] → srv.connect_pool.isSome

namespace Inv
variable {conf} {srv : Server} (inv : Inv conf srv)
include inv

/-- A connection to a remote that has none. -/
theorem opened {p : ConnectConfig} (listed : p ∈ conf.remotes) (new : ∀ sa, ¬srv.Connected sa p) (index : Nat) :
    Inv conf (Server.record {srv.write srv.count (some ⟨p,p.port⟩) with count := srv.count + 1} index srv.count) where
  peers sa adapter known := by
    by_cases same : sa = srv.count
    · subst same
      cases known.symm.trans (srv.write_self srv.count (some ⟨p,p.port⟩))
      exact ⟨listed,.inl rfl⟩
    · exact inv.peers sa adapter ((srv.write_ne same _).symm.trans known)
  counted sa live := by
    change ((srv.write srv.count (some ⟨p,p.port⟩)).adapters sa).isSome at live
    change sa < srv.count + 1
    by_cases same : sa = srv.count
    · omega
    · rw [srv.write_ne same] at live
      exact Nat.lt_succ_of_lt (inv.counted sa live)
  single sa other remote first second := by
    rcases Server.connected_write.mp first with ⟨rfl,here⟩ | ⟨_,first⟩ <;>
      rcases Server.connected_write.mp second with ⟨rfl,there⟩ | ⟨_,second⟩
    · rfl
    · cases here
      exact absurd second (new other)
    · cases there
      exact absurd first (new sa)
    · exact inv.single sa other remote first second
  allocated some_ := by
    change (srv.connect_pool.map _).isSome
    rw [Option.isSome_map]
    exact inv.allocated some_

theorem closed (sa : Nat) : Inv conf (srv.destroy_sock_adapter sa) := by
  have before : ∀ other adapter, (srv.destroy_sock_adapter sa).adapters other = some adapter → srv.adapters other = some adapter := by
    intro other adapter known
    by_cases same : other = sa
    · subst same
      cases known.symm.trans (srv.write_self other none)
    · exact (srv.write_ne same none).symm.trans known
  constructor
  · intro other adapter known
    exact inv.peers other adapter (before other adapter known)
  · intro other live
    obtain ⟨adapter,known⟩ := Option.isSome_iff_exists.mp live
    apply inv.counted other
    rw [before other adapter known]
    rfl
  · rintro first second remote ⟨adapter,known,same⟩ ⟨other,known',same'⟩
    exact inv.single first second remote ⟨adapter,before _ _ known,same⟩ ⟨other,before _ _ known',same'⟩
  · exact inv.allocated

/-- What a failed connect does to the adapter at the slot. -/
theorem unnamed {sa : Nat} {adapter : SockAdapter} (known : srv.adapters sa = some adapter) :
    Inv conf (srv.write sa (some {adapter with port := 0})) := by
  have before : ∀ other remote, (srv.write sa (some {adapter with port := 0})).Connected other remote → srv.Connected other remote := by
    intro other remote live
    rcases Server.connected_write.mp live with ⟨rfl,same⟩ | ⟨_,live⟩
    · exact ⟨adapter,known,same⟩
    · exact live
  constructor
  · intro other found given
    by_cases same : other = sa
    · subst same
      cases given.symm.trans (srv.write_self other _)
      exact ⟨(inv.peers other adapter known).1,.inr rfl⟩
    · exact inv.peers other found ((srv.write_ne same _).symm.trans given)
  · intro other live
    obtain ⟨found,given⟩ := Option.isSome_iff_exists.mp live
    exact inv.counted other (before other found.remote ⟨found,given,rfl⟩).port_remote
  · intro first second remote one two
    exact inv.single first second remote (before _ _ one) (before _ _ two)
  · exact inv.allocated

end Inv

/-! ### The first connects -/

theorem connects_spec {remotes : List ConnectConfig} {srv : Server} {n : Nat} (inv : Inv conf srv)
    (within : ∀ p ∈ remotes, p ∈ conf.remotes) (distinct : remotes.Nodup)
    (new : ∀ p ∈ remotes, ∀ sa, ¬srv.Connected sa p) (room : n ≤ conf.ncount_connect) :
    ((connects conf connected srv n remotes).isSome ↔ n + (remotes.filter connected).length ≤ conf.ncount_connect) ∧
      ∀ next, connects conf connected srv n remotes = some next → Inv conf next := by
  induction remotes generalizing srv n with
  | nil =>
    constructor
    · simpa [connects] using room
    · rintro next ⟨⟩
      exact inv
  | cons p remotes ih =>
    obtain ⟨apart,distinct⟩ := List.nodup_cons.mp distinct
    obtain ⟨listed,within⟩ := List.forall_mem_cons.mp within
    obtain ⟨first,new⟩ := List.forall_mem_cons.mp new
    cases reached : connected p with
    | false =>
      have rest := ih inv within distinct new room
      simpa [connects,Server.create_connect_socket,reached] using rest
    | true =>
      by_cases slot : n < conf.ncount_connect
      · have still : ∀ q ∈ remotes, ∀ sa,
            ¬(Server.record {srv.write srv.count (some ⟨p,p.port⟩) with count := srv.count + 1} n srv.count).Connected sa q := by
          intro q later sa live
          rcases Server.connected_write.mp live with ⟨_,same⟩ | ⟨_,live⟩
          · subst same
            exact apart later
          · exact new q later sa live
        have rest := ih (inv.opened listed first n) within distinct still slot
        have sum : n + 1 + (remotes.filter connected).length = n + ((remotes.filter connected).length + 1) := by omega
        rw [sum] at rest
        simpa [connects,Server.create_connect_socket,reached,slot] using rest
      · simp [connects,Server.create_connect_socket,reached,slot]
        omega

theorem create_connects_spec :
    ((create_connects conf connected .Init).isSome ↔ (conf.remotes.filter connected).length ≤ conf.ncount_connect) ∧
      ∀ srv, create_connects conf connected .Init = some srv → Inv conf srv := by
  by_cases none_ : conf.remotes = []
  · constructor
    · simp [create_connects,none_]
    · intro srv created
      rw [create_connects,if_pos none_] at created
      cases created
      constructor <;> simp [Server.Init,Server.Single,Server.Connected,none_]
  · have inv : Inv conf {Server.Init with connect_pool := some (List.replicate conf.ncount_connect none)} := by
      constructor <;> simp [Server.Init,Server.Single,Server.Connected]
    have spec := connects_spec conf connected inv (fun _ listed => listed) conf.distinct.of_map
      (by simp [Server.Init,Server.Connected]) (Nat.zero_le _)
    rw [create_connects,if_neg none_]
    simpa using spec

/-! ### Reconnecting -/

section Slot
variable {srv : Server} {index sa : Nat} {adapter : SockAdapter} (slot : srv.held index = some sa)
  (known : srv.adapters sa = some adapter)
include slot known

theorem reconnects_agree {p : ConnectConfig} (remotes : List ConnectConfig) (same : adapter.port = p.port) :
    reconnects connected srv index (p::remotes) = reconnects connected srv index remotes := by
  rw [reconnects]
  simp only [slot,known,same,ne_eq,not_true_eq_false,if_false]

theorem reconnects_none {remotes : List ConnectConfig} (none_ : (remotes.find? fun p => adapter.port ≠ p.port) = none) :
    reconnects connected srv index remotes = some (1,srv) := by
  induction remotes with
  | nil => rfl
  | cons p remotes ih =>
    have same : adapter.port = p.port := by
      simpa using List.find?_eq_none.mp none_ p List.mem_cons_self
    rw [reconnects_agree connected slot known remotes same]
    apply ih
    simpa [same] using none_

theorem reconnects_failed {remotes : List ConnectConfig} {p : ConnectConfig}
    (first : (remotes.find? fun p => adapter.port ≠ p.port) = some p) (failed : connected p = false) :
    reconnects connected srv index remotes = some (-1,srv.write sa (some {adapter with port := 0})) := by
  induction remotes with
  | nil => cases first
  | cons q remotes ih =>
    by_cases same : adapter.port = q.port
    · rw [reconnects_agree connected slot known remotes same]
      apply ih
      simpa [same] using first
    · rw [List.find?_cons_of_pos (by simpa using same)] at first
      cases first
      simp [reconnects,slot,known,same,Server.create_connect_socket,failed]

/-- The slot is overwritten. -/
theorem reconnects_reached {remotes : List ConnectConfig} {p : ConnectConfig}
    (first : (remotes.find? fun p => adapter.port ≠ p.port) = some p) (reached : connected p = true) :
    ∃ rest, reconnects connected srv index remotes = reconnects connected
      (Server.record {srv.write srv.count (some ⟨p,p.port⟩) with count := srv.count + 1} index srv.count) (index + 1) rest := by
  induction remotes with
  | nil => cases first
  | cons q remotes ih =>
    by_cases same : adapter.port = q.port
    · rw [reconnects_agree connected slot known remotes same]
      apply ih
      simpa [same] using first
    · rw [List.find?_cons_of_pos (by simpa using same)] at first
      cases first
      apply Exists.intro remotes
      simp [reconnects,slot,known,same,Server.create_connect_socket,reached]

end Slot

/-- Slots in front of the index stay as they are. -/
theorem reconnects_held {remotes : List ConnectConfig} {srv next : Server} {index : Nat} {ret : Int}
    (outcome : reconnects connected srv index remotes = some (ret,next)) {before : Nat} (front : before < index) :
    next.held before = srv.held before := by
  induction remotes generalizing srv index with
  | nil =>
    cases outcome
    rfl
  | cons p remotes ih =>
    rw [reconnects] at outcome
    cases slot : srv.held index with
    | none => simp [slot] at outcome
    | some tmp_sa =>
      cases known : srv.adapters tmp_sa with
      | none => simp [slot,known] at outcome
      | some adapter =>
        simp only [slot,known] at outcome
        split at outcome
        · cases reached : connected p with
          | false =>
            simp only [reached,Server.create_connect_socket] at outcome
            cases outcome
            rfl
          | true =>
            simp only [reached,Server.create_connect_socket] at outcome
            have later := ih outcome (Nat.lt_succ_of_lt front)
            exact later.trans (Server.held_record {srv.write srv.count _ with count := srv.count + 1} front.ne _)
        · exact ih outcome front

/-! ### Steps and runs -/

/-- If the call finds no other port, the pool has all there is. -/
theorem Inv.full {srv : Server} (inv : Inv conf srv) {sa : Nat} {adapter : SockAdapter} (slot : srv.held 0 = some sa)
    (known : srv.adapters sa = some adapter) (none_ : (conf.remotes.find? fun p => adapter.port ≠ p.port) = none) :
    srv.Full conf := by
  have agree : ∀ p ∈ conf.remotes, adapter.port = p.port := by simpa using none_
  obtain ⟨listed,port⟩ := inv.peers sa adapter known
  have same (remote : ConnectConfig) (given : remote ∈ conf.remotes) : adapter.remote = remote := by
    apply List.inj_on_of_nodup_map conf.distinct listed given
    rw [← agree _ listed,← agree _ given]
  intro remote given
  have live : srv.Connected sa remote := ⟨adapter,known,same remote given⟩
  exact ⟨sa,⟨0,slot⟩,live,fun other also => inv.single _ _ _ also live⟩

theorem reconnects_unslotted {srv : Server} (unslotted : ∀ sa, srv.held 0 = some sa → srv.adapters sa = none)
    {remotes : List ConnectConfig} (some_ : remotes ≠ []) : reconnects connected srv 0 remotes = none := by
  cases remotes with
  | nil => exact absurd rfl some_
  | cons p remotes =>
    rw [reconnects]
    cases slot : srv.held 0 with
    | none => rfl
    | some tmp_sa => simp only [unslotted tmp_sa slot]

theorem Inv.create_reconnects {srv : Server} (inv : Inv conf srv) (some_ : conf.remotes ≠ []) :
    create_reconnects conf connected srv = reconnects connected srv 0 conf.remotes := by
  have allocated := Option.isSome_iff_ne_none.mp (inv.allocated some_)
  rw [Reconnect.create_reconnects,if_neg some_,if_neg allocated]

theorem Inv.overwritten {srv next : Server} (inv : Inv conf srv) {sa : Nat} {adapter : SockAdapter} (slot : srv.held 0 = some sa)
    (known : srv.adapters sa = some adapter) {p : ConnectConfig}
    (first : (conf.remotes.find? fun p => adapter.port ≠ p.port) = some p) (reached : connected p = true) {ret : Int}
    (outcome : reconnects connected srv 0 conf.remotes = some (ret,next)) : ¬srv.Kept next := by
  obtain ⟨rest,same⟩ := reconnects_reached connected slot known first reached
  have later := reconnects_held connected (same.symm.trans outcome) (Nat.lt_succ_self 0)
  have new : next.held 0 = some srv.count :=
    later.trans (@Server.held_record_self {srv.write srv.count _ with count := srv.count + 1} _ _ slot srv.count)
  have old := inv.counted sa (by rw [known]; rfl)
  intro kept
  have still := kept 0 sa slot (by rw [known]; rfl)
  rw [new,Option.some_inj] at still
  omega

theorem right_iff_fits {srv : Server} (inv : Inv conf srv) (event : Event) : Right conf srv event ↔ Fits conf srv event := by
  cases event with
  | sock_conn_decref sa =>
    apply iff_of_true _ trivial
    refine ⟨⟨_,rfl,fun _ _ slot _ => slot,(inv.closed sa).single⟩,?_⟩
    rintro _ _ ⟨⟩
  | create_reconnects connected =>
    by_cases none_ : conf.remotes = []
    · apply iff_of_true _ (.inl none_)
      have idle : create_reconnects conf connected srv = some (0,srv) := if_pos none_
      refine ⟨⟨srv,congrArg (Option.map _) idle,fun _ _ slot _ => slot,inv.single⟩,?_⟩
      rintro _ _ ⟨⟩ outcome
      cases idle.symm.trans outcome
    have call := inv.create_reconnects conf connected none_
    by_cases unslotted : ∀ sa, srv.held 0 = some sa → srv.adapters sa = none
    · apply iff_of_false
      · rintro ⟨⟨next,outcome,_⟩,_⟩
        rw [step,call,reconnects_unslotted connected unslotted none_] at outcome
        cases outcome
      · rintro (empty | ⟨sa,adapter,slot,known,_⟩)
        · exact none_ empty
        · cases (unslotted sa slot).symm.trans known
    push Not at unslotted
    obtain ⟨sa,slot,live⟩ := unslotted
    obtain ⟨adapter,known⟩ := Option.ne_none_iff_exists'.mp live
    cases first : conf.remotes.find? fun p => adapter.port ≠ p.port with
    | none =>
      have outcome := call.trans (reconnects_none connected slot known first)
      apply iff_of_true
      · refine ⟨⟨srv,congrArg (Option.map _) outcome,fun _ _ slot _ => slot,inv.single⟩,?_⟩
        rintro _ _ ⟨⟩ given
        cases outcome.symm.trans given
        exact inv.full conf slot known first
      · refine .inr ⟨sa,adapter,slot,known,?_⟩
        rw [first]
        rintro _ ⟨⟩
    | some p =>
      cases reached : connected p with
      | false =>
        have outcome := call.trans (reconnects_failed connected slot known first reached)
        apply iff_of_true
        · refine ⟨⟨_,congrArg (Option.map _) outcome,fun _ _ slot _ => slot,(inv.unnamed known).single⟩,?_⟩
          rintro _ _ ⟨⟩ given
          cases outcome.symm.trans given
        · refine .inr ⟨sa,adapter,slot,known,?_⟩
          rw [first]
          rintro _ ⟨⟩
          exact reached
      | true =>
        apply iff_of_false
        · rintro ⟨⟨next,outcome,kept,_⟩,_⟩
          rw [step,call] at outcome
          obtain ⟨⟨ret,_⟩,given,rfl⟩ := Option.map_eq_some_iff.mp outcome
          exact inv.overwritten conf connected slot known first reached given kept
        · rintro (empty | ⟨other,given,slot',known',fails⟩)
          · exact none_ empty
          · cases slot.symm.trans slot'
            cases known.symm.trans known'
            cases reached.symm.trans (fails p first)

theorem Inv.step {srv next : Server} (inv : Inv conf srv) {event : Event} (fits : Fits conf srv event)
    (outcome : Reconnect.step conf srv event = some next) : Inv conf next := by
  cases event with
  | sock_conn_decref sa =>
    cases outcome
    exact inv.closed sa
  | create_reconnects connected =>
    by_cases none_ : conf.remotes = []
    · have idle : Reconnect.create_reconnects conf connected srv = some (0,srv) := if_pos none_
      rw [Reconnect.step,idle] at outcome
      cases outcome
      exact inv
    obtain ⟨sa,adapter,slot,known,fails⟩ := fits.resolve_left none_
    rw [Reconnect.step,inv.create_reconnects conf connected none_] at outcome
    cases first : conf.remotes.find? fun p => adapter.port ≠ p.port with
    | none =>
      rw [reconnects_none connected slot known first] at outcome
      cases outcome
      exact inv
    | some p =>
      rw [reconnects_failed connected slot known first (fails p first)] at outcome
      cases outcome
      exact inv.unnamed known

/-- Every step of a run from the first connects on is right, and so is the state they leave. -/
def PoolRight (events : List Event) : Prop :=
  ∃ srv, create_connects conf connected .Init = some srv ∧ srv.Single ∧ Along (step conf) (Right conf) srv events

theorem along_iff {srv : Server} (inv : Inv conf srv) (events : List Event) :
    Along (step conf) (Right conf) srv events ↔ Along (step conf) (Fits conf) srv events := by
  induction events generalizing srv with
  | nil => exact Iff.rfl
  | cons event events ih =>
    constructor
    · rintro ⟨right,rest⟩
      have fits := (right_iff_fits conf inv event).mp right
      exact ⟨fits,fun next outcome => (ih (inv.step conf fits outcome)).mp (rest next outcome)⟩
    · rintro ⟨fits,rest⟩
      exact ⟨(right_iff_fits conf inv event).mpr fits,fun next outcome => (ih (inv.step conf fits outcome)).mpr (rest next outcome)⟩

theorem pool_right_iff_fits (events : List Event) : PoolRight conf connected events ↔
    (conf.remotes.filter connected).length ≤ conf.ncount_connect ∧
      ∀ srv, create_connects conf connected .Init = some srv → Along (step conf) (Fits conf) srv events := by
  obtain ⟨created,inv⟩ := create_connects_spec conf connected
  constructor
  · rintro ⟨srv,outcome,_,along⟩
    constructor
    · apply created.mp
      rw [outcome]
      rfl
    · intro _ given
      cases outcome.symm.trans given
      exact (along_iff conf (inv srv outcome) events).mp along
  · rintro ⟨room,along⟩
    obtain ⟨srv,outcome⟩ := Option.isSome_iff_exists.mp (created.mpr room)
    exact ⟨srv,outcome,(inv srv outcome).single,(along_iff conf (inv srv outcome) events).mpr (along srv outcome)⟩

/-- Two remotes, all connects succeed, nothing is closed: the second one is connected to again. -/
theorem not_reconnect_right : ¬∀ (conf : Config) (connected : ConnectConfig → Bool) (events : List Event),
    conf.ncount_connect = conf.remotes.length → PoolRight conf connected events := by
  intro right
  let conf : Config := ⟨[⟨[],1,by decide⟩,⟨[],2,by decide⟩],by decide,2⟩
  obtain ⟨srv,created,_,along⟩ := right conf (fun _ => true) [.create_reconnects fun _ => true] rfl
  have inv := (create_connects_spec conf (fun _ => true)).2 srv created
  obtain empty | ⟨sa,adapter,slot,known,fails⟩ := (right_iff_fits conf inv _).mp along.1
  · cases empty
  · cases created
    cases slot
    cases known
    cases fails ⟨[],2,by decide⟩ rfl

end Migfm.Master.Reconnect
