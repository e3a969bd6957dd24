import Mathlib.Logic.Function.Basic
import Migfm.Library.Slots
import Migfm.Logic.ValueSerializer
import Migfm.Storage.RedisWarrper

/-! The plugins of chat/core/plugins.c: how the tables of their handlers are filled, and
the calls that go through a table. -/
namespace Migfm.Chat.Plugins
open Library Library.Slots
open Logic (ascii)
open Storage (c_str)

inductive handler_t
  | HANDLER_UNSET
  | HANDLER_GO_ON
  | HANDLER_FINISHED
  | HANDLER_COMEBACK
  | HANDLER_WAIT_FOR_EVENT
  | HANDLER_ERROR
  | HANDLER_WAIT_FOR_FD
  deriving DecidableEq

/-- The results that a call returns at once; it goes on after the others. -/
def handler_t.returned : handler_t → Bool
  | HANDLER_FINISHED | HANDLER_COMEBACK | HANDLER_WAIT_FOR_EVENT | HANDLER_WAIT_FOR_FD | HANDLER_ERROR => true
  | HANDLER_GO_ON | HANDLER_UNSET => false

inductive plugin_t
  | PLUGIN_FUNC_UNSET
  | PLUGIN_FUNC_HANDLER_INIT
  | PLUGIN_FUNC_HANDLER_CLEAN_UP
  | PLUGIN_FUNC_HANDLER_READ
  | PLUGIN_FUNC_HANDLER_READ_SRV
  | PLUGIN_FUNC_CONNECTION
  | PLUGIN_FUNC_CONNECTION_CLOSE
  | PLUGIN_FUNC_CLOCK_HANDLER
  | PLUGIN_FUNC_CONNECTION_SRV
  | PLUGIN_FUNC_CONNECTION_CLOSE_SRV
  | PLUGIN_FUNC_HANDLER_READ_OTHER
  | PLUGIN_FUNC_TIME_INIT
  | PLUGIN_FUNC_TIME_MSG
  deriving DecidableEq

/-! ### Plugins -/

/-- A `char*`, which may be NULL. -/
abbrev text := Option (List UInt8)

/-- Whether the texts are equal; nothing may be NULL. -/
def strcmp (s t : text) : Option Bool := do
  let s ← s
  let t ← t
  some (c_str s == c_str t)

def buffer_copy_string (b s : text) : text :=
  match s with
  | none => b
  | some s => some (c_str s)

structure plugin_data where
  id : text
  version : text

structure plugin_desc where
  id : text
  name : text
  version : text
  provider : text

/-- What a library sets, NULL for the handlers that it does not have. The server is part
of the `World`; `init` has its result, which may be NULL too. -/
structure functions (World : Type) where
  init : Option (Option plugin_data) := none
  clean_up : Option (Nat → World → handler_t × World) := none
  handler_init_time : Option (World → handler_t × World) := none
  handler_read : Option (Int32 → Nat → Int32 → World → handler_t × World) := none
  handler_read_srv : Option (Int32 → Nat → Int32 → World → handler_t × World) := none
  handler_read_other : Option (Int32 → Nat → Int32 → World → handler_t × World) := none
  connection : Option (Int32 → Nat → Int32 → World → handler_t × World) := none
  connection_close : Option (Int32 → World → handler_t × World) := none
  connection_srv : Option (Int32 → Nat → Int32 → World → handler_t × World) := none
  connection_close_srv : Option (Int32 → World → handler_t × World) := none
  time_msg : Option (List UInt8 → Int32 → Int32 → World → handler_t × World) := none

structure plugin (World : Type) extends functions World where
  id : text := none
  name : text := none
  version : text := none
  provider : text := none
  data : Option plugin_data := none

section Server
variable {World : Type}

/-- `p->y` for the kind. -/
def functions.has (f : functions World) : plugin_t → Bool
  | .PLUGIN_FUNC_HANDLER_INIT => f.init.isSome
  | .PLUGIN_FUNC_HANDLER_CLEAN_UP => f.clean_up.isSome
  | .PLUGIN_FUNC_HANDLER_READ => f.handler_read.isSome
  | .PLUGIN_FUNC_HANDLER_READ_SRV => f.handler_read_srv.isSome
  | .PLUGIN_FUNC_CONNECTION => f.connection.isSome
  | .PLUGIN_FUNC_CONNECTION_CLOSE => f.connection_close.isSome
  | .PLUGIN_FUNC_CONNECTION_SRV => f.connection_srv.isSome
  | .PLUGIN_FUNC_CONNECTION_CLOSE_SRV => f.connection_close_srv.isSome
  | .PLUGIN_FUNC_HANDLER_READ_OTHER => f.handler_read_other.isSome
  | .PLUGIN_FUNC_TIME_MSG => f.time_msg.isSome
  | .PLUGIN_FUNC_TIME_INIT => f.handler_init_time.isSome
  | .PLUGIN_FUNC_UNSET | .PLUGIN_FUNC_CLOCK_HANDLER => false

/-- In the order in which `plugins_call_init` has them. -/
def slotted : List plugin_t :=
  [.PLUGIN_FUNC_HANDLER_INIT,.PLUGIN_FUNC_HANDLER_CLEAN_UP,.PLUGIN_FUNC_HANDLER_READ,.PLUGIN_FUNC_HANDLER_READ_SRV,
    .PLUGIN_FUNC_CONNECTION,.PLUGIN_FUNC_CONNECTION_CLOSE,.PLUGIN_FUNC_CONNECTION_SRV,.PLUGIN_FUNC_CONNECTION_CLOSE_SRV,
    .PLUGIN_FUNC_HANDLER_READ_OTHER,.PLUGIN_FUNC_TIME_MSG,.PLUGIN_FUNC_TIME_INIT]

/-- Pointers to plugins; what was not written yet is `none`. -/
structure buffer where
  size : Nat
  used : Nat
  ptr : List (Option Nat)

abbrev Slots := plugin_t → Option (List (Option Nat))

/-- A plugin has its place in `heap` as address. -/
structure server (World : Type) where
  plugins_des : List plugin_desc
  plugins : buffer
  heap : List (plugin World)
  plugins_slot : Option Slots

/-! ### Loading -/

/-- `sizeof(*p)`, in pointers: the array has room for whole plugins. -/
def pointers : Nat := 18

def plugins_register (plugins : buffer) (p : Nat) : Option buffer :=
  let plugins : buffer :=
    if plugins.size = 0 then ⟨4,0,List.replicate (4 * pointers) none⟩
    else if plugins.size = plugins.used then
      { plugins with size := plugins.size + 4,ptr := plugins.ptr ++ List.replicate (4 * pointers) none }
    else plugins
  if plugins.used < plugins.ptr.length then
    some { plugins with ptr := plugins.ptr.set plugins.used (some p),used := plugins.used + 1 }
  else none

namespace server

/-- One round of `plugins_load`, with what the library sets. -/
def load (srv : server World) (f : functions World) : Option (server World) :=
  (plugins_register srv.plugins srv.heap.length).map fun plugins => { srv with plugins,heap := srv.heap ++ [{ f with }] }

def plugins_load (plugins_des : List plugin_desc) (loaded : List (functions World)) : Option (server World) :=
  loaded.foldlM load ⟨plugins_des,⟨0,0,[]⟩,[],none⟩

end server

/-! ### Initialization -/

/-- The loop for a free place, from `j` on; `none` outside of the table. -/
def place (slot : List (Option Nat)) (p : Nat) : Nat → Nat → Option (List (Option Nat))
  | 0,_ => some slot
  | left + 1,j =>
    match slot[j]? with
    | none => none
    | some (some _) => place slot p left (j + 1)
    | some none => some (slot.set j (some p))

/-- `PLUGIN_TO_SLOT` for a kind that the plugin has or has not. -/
def put (used p : Nat) (slots : Slots) (x : plugin_t) (y : Bool) : Option Slots :=
  if y then
    (place ((slots x).getD (List.replicate used none)) p used 0).map fun slot => Function.update slots x (some slot)
  else some slots

/-- The loop over the descriptors. -/
def introduce (data : plugin_data) : List plugin_desc → plugin World → Option (plugin World)
  | [],p => some p
  | pl_desc::descs,p => do
    if ← strcmp pl_desc.id (some (ascii "core")) then introduce data descs p
    else if ← strcmp pl_desc.id data.id then
      if ← strcmp pl_desc.version data.version then
        some { p with
          id := buffer_copy_string p.id pl_desc.id
          name := buffer_copy_string p.name pl_desc.name
          version := buffer_copy_string p.version pl_desc.version
          provider := buffer_copy_string p.provider pl_desc.provider }
      else introduce data descs p
    else introduce data descs p

namespace server

/-- One round of `plugins_call_init`. -/
def init_plugin (srv : server World) (i : Nat) : Option (handler_t × server World) := do
  let address ← (srv.plugins.ptr[i]?).join
  let p ← srv.heap[address]?
  let slots ← srv.plugins_slot
  let slots ← slotted.foldlM (fun slots x => put srv.plugins.used address slots x (p.has x)) slots
  match p.init with
  | none => some (.HANDLER_GO_ON,{ srv with plugins_slot := slots,heap := srv.heap.set address { p with data := none } })
  | some none => some (.HANDLER_ERROR,{ srv with plugins_slot := slots,heap := srv.heap.set address { p with data := none } })
  | some (some data) =>
    let p ← introduce data srv.plugins_des { p with data }
    some (.HANDLER_GO_ON,{ srv with plugins_slot := slots,heap := srv.heap.set address p })

/-- The rounds from `i` on, which is an `int`. -/
def init_plugins : Nat → Nat → server World → Option (handler_t × server World)
  | 0,_,srv => some (.HANDLER_GO_ON,srv)
  | left + 1,i,srv => do
    let (r,srv) ← srv.init_plugin i
    if r = .HANDLER_ERROR then some (r,srv)
    else if i + 1 < 2 ^ 31 then init_plugins left (i + 1) srv
    else none

def plugins_call_init (srv : server World) : Option (handler_t × server World) :=
  init_plugins srv.plugins.used 0 { srv with plugins_slot := some fun _ => none }

end server

/-! ### Calls -/

/-- The loop over a table, from `j` on. `call` is what is done for one plugin, and
`none` where the program is undefined. -/
def scan (call : Nat → World → Option (handler_t × World)) (slot : List (Option Nat)) : Nat → Nat → World → Option (handler_t × World)
  | 0,_,world => some (.HANDLER_GO_ON,world)
  | left + 1,j,world =>
    match slot[j]? with
    | none => none
    | some none => some (.HANDLER_GO_ON,world)
    | some (some p) => do
      let (r,world) ← call p world
      if r.returned then some (r,world) else scan call slot left (j + 1) world

namespace server
variable (srv : server World)

def PLUGIN_TO_SLOT (x : plugin_t) (y : plugin World → World → Option (handler_t × World)) (world : World) :
    Option (handler_t × World) :=
  match srv.plugins_slot with
  | none => some (.HANDLER_GO_ON,world)
  | some slots =>
    match slots x with
    | none => some (.HANDLER_GO_ON,world)
    | some slot => scan (fun p world => (srv.heap[p]?).bind fun p => y p world) slot srv.plugins.used 0 world

def plugins_call_clean_up (pd : Nat) : World → Option (handler_t × World) :=
  srv.PLUGIN_TO_SLOT .PLUGIN_FUNC_HANDLER_CLEAN_UP fun p world => p.clean_up.map fun y => y pd world

def plugins_call_handler_init_time : World → Option (handler_t × World) :=
  srv.PLUGIN_TO_SLOT .PLUGIN_FUNC_TIME_INIT fun p world => p.handler_init_time.map fun y => y world

def plugins_call_connection (fd : Int32) (pd : Nat) (len : Int32) : World → Option (handler_t × World) :=
  srv.PLUGIN_TO_SLOT .PLUGIN_FUNC_CONNECTION fun p world => p.connection.map fun y => y fd pd len world

def plugins_call_handler_read (fd : Int32) (pd : Nat) (len : Int32) : World → Option (handler_t × World) :=
  srv.PLUGIN_TO_SLOT .PLUGIN_FUNC_HANDLER_READ fun p world => p.handler_read.map fun y => y fd pd len world

def plugins_call_connection_srv (fd : Int32) (pd : Nat) (len : Int32) : World → Option (handler_t × World) :=
  srv.PLUGIN_TO_SLOT .PLUGIN_FUNC_CONNECTION_SRV fun p world => p.connection_srv.map fun y => y fd pd len world

def plugins_call_handler_read_srv (fd : Int32) (pd : Nat) (len : Int32) : World → Option (handler_t × World) :=
  srv.PLUGIN_TO_SLOT .PLUGIN_FUNC_HANDLER_READ_SRV fun p world => p.handler_read_srv.map fun y => y fd pd len world

def plugins_call_handler_read_other (fd : Int32) (pd : Nat) (len : Int32) : World → Option (handler_t × World) :=
  srv.PLUGIN_TO_SLOT .PLUGIN_FUNC_HANDLER_READ_OTHER fun p world => p.handler_read_other.map fun y => y fd pd len world

def plugins_call_connection_close (fd : Int32) : World → Option (handler_t × World) :=
  srv.PLUGIN_TO_SLOT .PLUGIN_FUNC_CONNECTION_CLOSE fun p world => p.connection_close.map fun y => y fd world

def plugins_call_connection_close_srv (fd : Int32) : World → Option (handler_t × World) :=
  srv.PLUGIN_TO_SLOT .PLUGIN_FUNC_CONNECTION_CLOSE_SRV fun p world => p.connection_close_srv.map fun y => y fd world

def plugins_call_time_msg (id : List UInt8) (opcode time : Int32) : World → Option (handler_t × World) :=
  srv.PLUGIN_TO_SLOT .PLUGIN_FUNC_TIME_MSG fun p world => do
    if ← strcmp p.id (some id) then p.time_msg.map fun y => y id opcode time world
    else some (.HANDLER_GO_ON,world)

end server
/-! ### What the calls are for -/

/-- The handlers in their order, up to the first result that is returned. -/
def runs : List (World → handler_t × World) → World → handler_t × World
  | [],world => (.HANDLER_GO_ON,world)
  | y::ys,world => if (y world).1.returned then y world else runs ys (y world).2

/-- The descriptor is that of the data. -/
def plugin_desc.describes (pl_desc : plugin_desc) (data : plugin_data) : Bool :=
  strcmp pl_desc.id (some (ascii "core")) != some true && strcmp pl_desc.id data.id == some true &&
    strcmp pl_desc.version data.version == some true

/-- The id that a plugin gets from the descriptors. -/
def functions.named (plugins_des : List plugin_desc) (f : functions World) : text :=
  match f.init with
  | some (some data) => (plugins_des.find? fun pl_desc => pl_desc.describes data).bind fun pl_desc => pl_desc.id.map c_str
  | _ => none

/-- Each call runs the handlers of the plugins that have them, in the order in which
they were loaded; a message of the timer, those of the plugins with its id. -/
structure Dispatches (plugins_des : List plugin_desc) (loaded : List (functions World)) (srv : server World) : Prop where
  clean_up : ∀ pd world, srv.plugins_call_clean_up pd world =
    some (runs (loaded.filterMap fun f => f.clean_up.map fun y => y pd) world)
  handler_init_time : ∀ world, srv.plugins_call_handler_init_time world =
    some (runs (loaded.filterMap fun f => f.handler_init_time) world)
  connection : ∀ fd pd len world, srv.plugins_call_connection fd pd len world =
    some (runs (loaded.filterMap fun f => f.connection.map fun y => y fd pd len) world)
  handler_read : ∀ fd pd len world, srv.plugins_call_handler_read fd pd len world =
    some (runs (loaded.filterMap fun f => f.handler_read.map fun y => y fd pd len) world)
  connection_srv : ∀ fd pd len world, srv.plugins_call_connection_srv fd pd len world =
    some (runs (loaded.filterMap fun f => f.connection_srv.map fun y => y fd pd len) world)
  handler_read_srv : ∀ fd pd len world, srv.plugins_call_handler_read_srv fd pd len world =
    some (runs (loaded.filterMap fun f => f.handler_read_srv.map fun y => y fd pd len) world)
  handler_read_other : ∀ fd pd len world, srv.plugins_call_handler_read_other fd pd len world =
    some (runs (loaded.filterMap fun f => f.handler_read_other.map fun y => y fd pd len) world)
  connection_close : ∀ fd world, srv.plugins_call_connection_close fd world =
    some (runs (loaded.filterMap fun f => f.connection_close.map fun y => y fd) world)
  connection_close_srv : ∀ fd world, srv.plugins_call_connection_close_srv fd world =
    some (runs (loaded.filterMap fun f => f.connection_close_srv.map fun y => y fd) world)
  time_msg : ∀ id opcode time world, srv.plugins_call_time_msg id opcode time world =
    some (runs ((loaded.filter fun f => f.named plugins_des == some (c_str id)).filterMap fun f =>
      f.time_msg.map fun y => y id opcode time) world)

/-! ### Tables without gaps -/

/-- The table of the plugins at `held`; there is none for no plugin. -/
def table (used : Nat) (held : List Nat) : Option (List (Option Nat)) :=
  if held = [] then none else some (packed held (used - held.length))

theorem table_getD {used : Nat} {held : List Nat} :
    (table used held).getD (List.replicate used none) = packed held (used - held.length) := by
  rw [table]
  split
  · rename_i none_
    subst none_
    rfl
  · rfl

/-- From any place that is held, the first free one is reached. -/
theorem place_packed {held : List Nat} {free p left j : Nat} (within : j ≤ held.length) (enough : held.length < left + j) :
    place (packed held (free + 1)) p left j = some (packed (held ++ [p]) free) := by
  induction left generalizing j with
  | zero => omega
  | succ left ih =>
    rw [place]
    obtain less | same := Nat.lt_or_eq_of_le within
    · rw [packed_held less]
      exact ih less (by omega)
    · subst same
      rw [packed_free,← packed_set]

theorem put_table {used p : Nat} {slots : Slots} {x : plugin_t} {held : List Nat} (there : slots x = table used held)
    (less : held.length < used) (y : Bool) :
    put used p slots x y = some (Function.update slots x (table used (if y then held ++ [p] else held))) := by
  cases y with
  | false =>
    rw [put,if_neg Bool.false_ne_true,if_neg Bool.false_ne_true,← there,Function.update_eq_self]
  | true =>
    obtain ⟨free,size⟩ : ∃ free, used - held.length = free + 1 := ⟨used - held.length - 1,by omega⟩
    rw [put,if_pos rfl,there,table_getD,size,place_packed (Nat.zero_le _) (by omega),if_pos rfl,table,
      if_neg (List.append_ne_nil_of_right_ne_nil _ (List.cons_ne_nil _ _))]
    rw [show used - (held ++ [p]).length = free by rw [List.length_append,List.length_singleton]; omega]
    rfl

/-- The kinds of one plugin, each in its own table. -/
theorem puts_table {used p : Nat} (has : plugin_t → Bool) {order : List plugin_t} (distinct : order.Nodup) {slots : Slots}
    {held : plugin_t → List Nat} (there : ∀ x, slots x = table used (held x)) (less : ∀ x ∈ order, (held x).length < used) :
    order.foldlM (fun slots x => put used p slots x (has x)) slots =
      some fun x => table used (if x ∈ order ∧ has x then held x ++ [p] else held x) := by
  induction order generalizing slots held with
  | nil =>
    refine congrArg some (funext fun x => ?_)
    rw [there,if_neg fun both => List.not_mem_nil both.1]
  | cons first order ih =>
    obtain ⟨fresh,distinct⟩ := List.nodup_cons.mp distinct
    rw [List.foldlM_cons,put_table (there first) (less first List.mem_cons_self)]
    have there' (x : plugin_t) : Function.update slots first (table used (if has first then held first ++ [p] else held first)) x =
        table used (Function.update held first (if has first then held first ++ [p] else held first) x) := by
      by_cases same : x = first
      · subst same
        rw [Function.update_self,Function.update_self]
      · rw [Function.update_of_ne same,Function.update_of_ne same,there]
    refine (ih distinct there' ?_).trans ?_
    · intro x listed
      have apart : x ≠ first := fun same => fresh (by rwa [← same])
      rw [Function.update_of_ne apart]
      exact less x (List.mem_cons_of_mem _ listed)
    · refine congrArg some (funext fun x => congrArg (table used) ?_)
      by_cases same : x = first
      · subst same
        rw [if_neg fun both => fresh both.1,Function.update_self]
        simp only [List.mem_cons_self,true_and]
      · rw [Function.update_of_ne same]
        simp only [List.mem_cons,same,false_or]

/-! ### Loading -/

structure Loaded (descs : List plugin_desc) (loaded : List (functions World)) (srv : server World) : Prop where
  plugins_des : srv.plugins_des = descs
  used : srv.plugins.used = loaded.length
  fits : srv.plugins.used ≤ srv.plugins.size
  room : srv.plugins.ptr.length = srv.plugins.size * pointers
  ptr : ∀ i < loaded.length, srv.plugins.ptr[i]? = some (some i)
  heap : srv.heap = loaded.map fun f => { f with }

/-- The array grows before it is full. -/
theorem plugins_register_spec {plugins : buffer} (fits : plugins.used ≤ plugins.size)
    (room : plugins.ptr.length = plugins.size * pointers) (p : Nat) :
    ∃ after, plugins_register plugins p = some after ∧ after.used = plugins.used + 1 ∧ after.used ≤ after.size ∧
      after.ptr.length = after.size * pointers ∧ after.ptr[plugins.used]? = some (some p) ∧
      ∀ i < plugins.used, after.ptr[i]? = plugins.ptr[i]? := by
  have written {grown : buffer} (same : grown.used = plugins.used) (less : grown.used < grown.size)
      (room : grown.ptr.length = grown.size * pointers) (kept : ∀ i < plugins.used, grown.ptr[i]? = plugins.ptr[i]?) :
      ∃ after, (if grown.used < grown.ptr.length then
          some { grown with ptr := grown.ptr.set grown.used (some p),used := grown.used + 1 } else none) = some after ∧
        after.used = plugins.used + 1 ∧ after.used ≤ after.size ∧ after.ptr.length = after.size * pointers ∧
        after.ptr[plugins.used]? = some (some p) ∧ ∀ i < plugins.used, after.ptr[i]? = plugins.ptr[i]? := by
    have inside : grown.used < grown.ptr.length := by
      rw [room,pointers]
      omega
    rw [if_pos inside]
    refine ⟨_,rfl,congrArg (· + 1) same,less,?_,?_,?_⟩
    · rw [List.length_set,room]
    · rw [← same]
      exact List.getElem?_set_self inside
    · intro i before
      rw [← kept i before]
      exact List.getElem?_set_ne (by omega)
  rw [plugins_register]
  split
  · rename_i empty
    have none_ : plugins.used = 0 := Nat.eq_zero_of_le_zero (empty ▸ fits)
    refine written none_.symm (Nat.succ_pos 3) (List.length_replicate ..) ?_
    intro i before
    rw [none_] at before
    exact absurd before (Nat.not_lt_zero i)
  split
  · rename_i full
    refine written rfl ?_ ?_ ?_
    · change plugins.used < plugins.size + 4
      omega
    · rw [List.length_append,room,List.length_replicate,Nat.add_mul]
    · intro i before
      refine List.getElem?_append_left ?_
      rw [room,pointers]
      omega
  · exact written rfl (by omega) room fun _ _ => rfl

theorem plugins_load_spec (plugins_des : List plugin_desc) (loaded : List (functions World)) :
    ∃ srv, server.plugins_load plugins_des loaded = some srv ∧ Loaded plugins_des loaded srv := by
  induction loaded using List.reverseRecOn with
  | nil => exact ⟨_,rfl,rfl,rfl,Nat.zero_le _,rfl,fun i before => absurd before (Nat.not_lt_zero i),rfl⟩
  | append_singleton earlier f ih =>
    obtain ⟨srv,before,ready⟩ := ih
    obtain ⟨plugins,registered,used,fits,room,new,kept⟩ := plugins_register_spec ready.fits ready.room srv.heap.length
    have length : srv.heap.length = earlier.length := by rw [ready.heap,List.length_map]
    refine ⟨{ srv with plugins,heap := srv.heap ++ [{ f with }] },?_,ready.plugins_des,?_,fits,room,?_,?_⟩
    · rw [server.plugins_load] at before ⊢
      rw [List.foldlM_append,before,Option.bind_eq_bind,Option.bind_some,List.foldlM_cons,server.load,registered]
      rfl
    · rw [List.length_append,List.length_singleton,← ready.used]
      exact used
    · intro i inside
      rw [List.length_append,List.length_singleton] at inside
      obtain old | last := Nat.lt_or_eq_of_le (Nat.le_of_lt_succ inside)
      · exact (kept i (by rw [ready.used]; exact old)).trans (ready.ptr i old)
      · rw [last,← ready.used]
        refine new.trans ?_
        rw [length,ready.used]
    · rw [List.map_append,ready.heap]
      rfl

/-! ### Initialization -/

theorem introduce_spec {data : plugin_data} {descs : List plugin_desc} {p after : plugin World}
    (done : introduce data descs p = some after) (unnamed : p.id = none) :
    after.tofunctions = p.tofunctions ∧
      after.id = (descs.find? fun pl_desc => pl_desc.describes data).bind fun pl_desc => pl_desc.id.map c_str := by
  induction descs with
  | nil =>
    cases done
    exact ⟨rfl,unnamed⟩
  | cons pl_desc descs ih =>
    rw [introduce] at done
    obtain ⟨core,core_,done⟩ := Option.bind_eq_some_iff.mp done
    cases core with
    | true =>
      rw [List.find?_cons_of_neg (by rw [plugin_desc.describes,core_]; exact Bool.false_ne_true)]
      exact ih done
    | false =>
      obtain ⟨same,same_,done⟩ := Option.bind_eq_some_iff.mp done
      cases same with
      | false =>
        rw [List.find?_cons_of_neg (by rw [plugin_desc.describes,core_,same_]; exact Bool.false_ne_true)]
        exact ih done
      | true =>
        obtain ⟨version,version_,done⟩ := Option.bind_eq_some_iff.mp done
        cases version with
        | false =>
          rw [List.find?_cons_of_neg (by rw [plugin_desc.describes,core_,same_,version_]; decide)]
          exact ih done
        | true =>
          rw [List.find?_cons_of_pos (by rw [plugin_desc.describes,core_,same_,version_]; decide)]
          cases done
          refine ⟨rfl,?_⟩
          change buffer_copy_string p.id pl_desc.id = pl_desc.id.map c_str
          rw [unnamed]
          cases pl_desc.id with
          | none => rfl
          | some id => rfl

/-- The plugins of a kind among the first `i`. -/
def holders (loaded : List (functions World)) (i : Nat) (x : plugin_t) : List Nat :=
  ((loaded.take i).zipIdx.filter fun entry => entry.1.has x).map Prod.snd

structure Ready (descs : List plugin_desc) (loaded : List (functions World)) (i : Nat) (srv : server World) : Prop where
  plugins_des : srv.plugins_des = descs
  used : srv.plugins.used = loaded.length
  ptr : ∀ i < loaded.length, srv.plugins.ptr[i]? = some (some i)
  heap : ∀ k f, loaded[k]? = some f → ∃ p, srv.heap[k]? = some p ∧ p.tofunctions = f ∧
    p.id = if k < i then f.named descs else none
  slots : ∃ slots, srv.plugins_slot = some slots ∧ ∀ x, slots x = table loaded.length (holders loaded i x)

theorem Loaded.ready {plugins_des : List plugin_desc} {loaded : List (functions World)} {srv : server World}
    (done : Loaded plugins_des loaded srv) : Ready plugins_des loaded 0 { srv with plugins_slot := some fun _ => none } := by
  refine ⟨done.plugins_des,done.used,done.ptr,?_,_,rfl,fun x => rfl⟩
  intro k f there
  refine ⟨{ f with },?_,rfl,rfl⟩
  change srv.heap[k]? = _
  rw [done.heap,List.getElem?_map,there]
  rfl

theorem holders_succ {loaded : List (functions World)} {i : Nat} {f : functions World} (there : loaded[i]? = some f) (x : plugin_t) :
    holders loaded (i + 1) x = if f.has x then holders loaded i x ++ [i] else holders loaded i x := by
  obtain ⟨inside,rfl⟩ := List.getElem?_eq_some_iff.mp there
  rw [holders,List.take_succ_eq_append_getElem inside,List.zipIdx_append,List.filter_append,List.map_append,holders,
    List.length_take_of_le (Nat.le_of_lt inside),Nat.zero_add]
  split
  · rename_i has
    rw [List.zipIdx_singleton,List.filter_cons_of_pos (by exact has)]
    rfl
  · rename_i has
    rw [List.zipIdx_singleton,List.filter_cons_of_neg (by exact has)]
    exact List.append_nil _

theorem length_holders {loaded : List (functions World)} {i : Nat} (inside : i ≤ loaded.length) (x : plugin_t) :
    (holders loaded i x).length ≤ i := by
  rw [holders,List.length_map]
  refine (List.length_filter_le ..).trans ?_
  rw [List.length_zipIdx,List.length_take_of_le inside]

theorem slotted_has (f : functions World) (x : plugin_t) : (x ∈ slotted ∧ f.has x = true) ↔ f.has x = true := by
  refine ⟨fun both => both.2,fun has => ⟨?_,has⟩⟩
  cases x with
  | PLUGIN_FUNC_UNSET => cases has
  | PLUGIN_FUNC_CLOCK_HANDLER => cases has
  | _ => decide

theorem init_plugin_ready {descs : List plugin_desc} {loaded : List (functions World)} {i : Nat} {srv after : server World}
    {r : handler_t} (ready : Ready descs loaded i srv) (inside : i < loaded.length) (done : srv.init_plugin i = some (r,after))
    (went : r ≠ .HANDLER_ERROR) : Ready descs loaded (i + 1) after := by
  obtain ⟨slots,there,tables⟩ := ready.slots
  obtain ⟨p,at_,functions,unnamed⟩ := ready.heap i loaded[i] (List.getElem?_eq_getElem inside)
  rw [if_neg (Nat.lt_irrefl i)] at unnamed
  have length : i < srv.heap.length := (List.getElem?_eq_some_iff.mp at_).1
  have filled := @puts_table loaded.length i p.has slotted (by decide) slots _ tables fun x _ =>
    lt_of_le_of_lt (length_holders (Nat.le_of_lt inside) x) inside
  have next : (fun x => table loaded.length (if x ∈ slotted ∧ p.has x then holders loaded i x ++ [i] else holders loaded i x)) =
      fun x => table loaded.length (holders loaded (i + 1) x) := by
    funext x
    rw [holders_succ (List.getElem?_eq_getElem inside) x,functions]
    simp only [slotted_has]
  rw [next] at filled
  -- the plugin as it is left: with its functions, and named by the descriptors
  have written {new : plugin World} (functions : new.tofunctions = loaded[i]) (named : new.id = loaded[i].named descs)
      {srv' : server World} (des : srv'.plugins_des = descs) (same : srv'.plugins = srv.plugins) (heap : srv'.heap = srv.heap.set i new)
      (slots : srv'.plugins_slot = some fun x => table loaded.length (holders loaded (i + 1) x)) :
      Ready descs loaded (i + 1) srv' := by
    refine ⟨des,same ▸ ready.used,same ▸ ready.ptr,?_,_,slots,fun x => rfl⟩
    intro k f listed
    by_cases here : k = i
    · subst here
      rw [List.getElem?_eq_getElem inside] at listed
      cases listed
      refine ⟨new,?_,functions,?_⟩
      · rw [heap]
        exact List.getElem?_set_self length
      · rw [if_pos (Nat.lt_succ_self k)]
        exact named
    · obtain ⟨old,before,kept,id⟩ := ready.heap k f listed
      refine ⟨old,?_,kept,?_⟩
      · rw [heap,List.getElem?_set_ne (Ne.symm here)]
        exact before
      · have sooner : k < i + 1 ↔ k < i := by omega
        rw [id]
        simp only [sooner]
  obtain ⟨address,read,done⟩ := Option.bind_eq_some_iff.mp done
  rw [ready.ptr i inside] at read
  cases read
  obtain ⟨p',read,done⟩ := Option.bind_eq_some_iff.mp done
  cases at_.symm.trans read
  obtain ⟨slots',read,done⟩ := Option.bind_eq_some_iff.mp done
  cases there.symm.trans read
  obtain ⟨slots',put,done⟩ := Option.bind_eq_some_iff.mp done
  rw [ready.used] at put
  cases filled.symm.trans put
  have init : loaded[i].init = p.init := by rw [← functions]
  split at done
  · rename_i none_
    cases done
    refine @written { p with data := none } functions ?_ _ ready.plugins_des rfl rfl rfl
    rw [functions.named,init,none_]
    exact unnamed
  · cases done
    exact absurd rfl went
  · rename_i data some_
    obtain ⟨new,introduced,made⟩ := Option.bind_eq_some_iff.mp done
    obtain ⟨kept,named⟩ := introduce_spec introduced unnamed
    cases made
    refine written (kept.trans functions) ?_ ready.plugins_des rfl rfl rfl
    rw [named,functions.named,init,some_,ready.plugins_des]

theorem init_plugins_ready {descs : List plugin_desc} {loaded : List (functions World)} {left i : Nat} {srv after : server World}
    (ready : Ready descs loaded i srv) (all : i + left = loaded.length)
    (done : server.init_plugins left i srv = some (.HANDLER_GO_ON,after)) : Ready descs loaded loaded.length after := by
  induction left generalizing i srv with
  | zero =>
    cases done
    rw [← all]
    exact ready
  | succ left ih =>
    obtain ⟨⟨r,next⟩,one,done⟩ := Option.bind_eq_some_iff.mp done
    by_cases error : r = .HANDLER_ERROR
    · cases (if_pos error).symm.trans done
      cases error
    · have done := (if_neg error).symm.trans done
      by_cases more : i + 1 < 2 ^ 31
      · exact ih (init_plugin_ready ready (by omega) one error) (by omega) ((if_pos more).symm.trans done)
      · cases (if_neg more).symm.trans done

/-! ### Calls -/

/-- What a scan does for the plugins of a table. -/
def calls (call : Nat → World → Option (handler_t × World)) : List Nat → World → Option (handler_t × World)
  | [],world => some (.HANDLER_GO_ON,world)
  | p::ps,world => do
    let (r,world) ← call p world
    if r.returned then some (r,world) else calls call ps world

/-- The scan ends with the table or at its first free place, and reads nothing outside. -/
theorem scan_packed (call : Nat → World → Option (handler_t × World)) {held : List Nat} {free left j : Nat}
    (within : j ≤ held.length) (whole : j + left = held.length + free) (world : World) :
    scan call (packed held free) left j world = calls call (held.drop j) world := by
  induction left generalizing j world with
  | zero =>
    rw [List.drop_eq_nil_of_le (by omega)]
    rfl
  | succ left ih =>
    rw [scan]
    obtain less | same := Nat.lt_or_eq_of_le within
    · rw [packed_held less,List.drop_eq_getElem_cons less,calls]
      dsimp only
      cases call held[j] world with
      | none => rfl
      | some result =>
        dsimp only [bind,Option.bind]
        rw [ih less (by omega)]
    · subst same
      obtain ⟨rest,rfl⟩ : ∃ rest, free = rest + 1 := ⟨left,by omega⟩
      rw [packed_free,List.drop_length]
      rfl

theorem PLUGIN_TO_SLOT_calls {descs : List plugin_desc} {loaded : List (functions World)} {srv : server World}
    (ready : Ready descs loaded loaded.length srv) (x : plugin_t) (y : plugin World → World → Option (handler_t × World))
    (world : World) :
    srv.PLUGIN_TO_SLOT x y world =
      calls (fun p world => (srv.heap[p]?).bind fun p => y p world) (holders loaded loaded.length x) world := by
  obtain ⟨slots,there,tables⟩ := ready.slots
  rw [server.PLUGIN_TO_SLOT,there]
  dsimp only
  rw [tables,table]
  by_cases none_ : holders loaded loaded.length x = []
  · rw [if_pos none_,none_]
    rfl
  · have length := @length_holders World loaded loaded.length le_rfl x
    rw [if_neg none_]
    exact scan_packed _ (Nat.zero_le _) (by rw [ready.used]; omega) world

/-- The plugins that do something are run, and the others passed over. -/
theorem calls_runs {call : Nat → World → Option (handler_t × World)} {entries : List (functions World × Nat)}
    {act : functions World → Option (World → handler_t × World)}
    (does : ∀ entry ∈ entries, ∀ world, call entry.2 world =
      match act entry.1 with
      | some y => some (y world)
      | none => some (.HANDLER_GO_ON,world)) (world : World) :
    calls call (entries.map Prod.snd) world = some (runs ((entries.map Prod.fst).filterMap act) world) := by
  induction entries generalizing world with
  | nil => rfl
  | cons entry entries ih =>
    obtain ⟨first,rest⟩ := List.forall_mem_cons.mp does
    rw [List.map_cons,List.map_cons,calls,first]
    cases acts : act entry.1 with
    | none =>
      rw [List.filterMap_cons_none acts]
      exact ih rest world
    | some y =>
      rw [List.filterMap_cons_some acts,runs]
      refine Eq.trans (b := if (y world).1.returned then some (y world) else calls call (entries.map Prod.snd) (y world).2) rfl ?_
      split
      · rfl
      · exact ih rest (y world).2

theorem strcmp_named {descs : List plugin_desc} {f : functions World} {name id : List UInt8} (named : f.named descs = some name) :
    strcmp (some name) (some id) = some (name == c_str id) := by
  rw [functions.named] at named
  split at named
  · obtain ⟨pl_desc,-,named⟩ := Option.bind_eq_some_iff.mp named
    obtain ⟨id',-,rfl⟩ := Option.map_eq_some_iff.mp named
    exact congrArg (fun text => some (text == c_str id)) (Storage.c_str_eq (Storage.c_str_clean id'))
  · cases named

section Ready
variable {descs : List plugin_desc} {loaded : List (functions World)} {srv : server World}

/-- A table with the plugins that it was filled from. -/
theorem Ready.entries (ready : Ready descs loaded loaded.length srv) :
    ∀ entry ∈ loaded.zipIdx, ∃ p, srv.heap[entry.2]? = some p ∧ p.tofunctions = entry.1 ∧ p.id = entry.1.named descs := by
  intro entry listed
  have there := List.mem_zipIdx_iff_getElem?.mp listed
  obtain ⟨p,at_,functions,id⟩ := ready.heap entry.2 entry.1 there
  rw [if_pos (List.getElem?_eq_some_iff.mp there).1] at id
  exact ⟨p,at_,functions,id⟩

theorem filterMap_filter_zipIdx (has : functions World → Bool) (act : functions World → Option (World → handler_t × World))
    (only : ∀ f, act f ≠ none → has f = true) :
    (((loaded.zipIdx.filter fun entry => has entry.1).map Prod.fst).filterMap act) = loaded.filterMap act := by
  have firsts : (loaded.zipIdx.filter fun entry => has entry.1).map Prod.fst = loaded.filter has := by
    conv_rhs => rw [← List.zipIdx_map_fst 0 loaded]
    rw [List.filter_map]
    rfl
  rw [firsts,List.filterMap_filter]
  refine List.filterMap_congr fun f _ => ?_
  split
  · rfl
  · rename_i absent
    by_contra acts
    exact absent (only f (Ne.symm acts))

/-- A call of all handlers of a kind. -/
theorem Ready.dispatch (ready : Ready descs loaded loaded.length srv) {x : plugin_t}
    {y : plugin World → World → Option (handler_t × World)} (act : functions World → Option (World → handler_t × World))
    (kind : ∀ f, f.has x = (act f).isSome) (does : ∀ p world, y p world = (act p.tofunctions).map fun y => y world) (world : World) :
    srv.PLUGIN_TO_SLOT x y world = some (runs (loaded.filterMap act) world) := by
  rw [PLUGIN_TO_SLOT_calls ready,holders,List.take_length,
    ← filterMap_filter_zipIdx (fun f => f.has x) act fun f acts => by rw [kind,Option.isSome_iff_ne_none]; exact acts]
  refine calls_runs ?_ world
  intro entry listed world
  obtain ⟨member,has⟩ := List.mem_filter.mp listed
  obtain ⟨p,there,functions,-⟩ := ready.entries entry member
  rw [there,Option.bind_some,does,functions]
  rw [kind] at has
  obtain ⟨y,acts⟩ := Option.isSome_iff_exists.mp has
  rw [acts]
  rfl

/-- A message of the timer, where all plugins that take one have an id. -/
theorem Ready.dispatch_time (ready : Ready descs loaded loaded.length srv)
    (named : ∀ f ∈ loaded, f.time_msg.isSome → (f.named descs).isSome) (id : List UInt8) (opcode time : Int32) (world : World) :
    srv.plugins_call_time_msg id opcode time world =
      some (runs ((loaded.filter fun f => f.named descs == some (c_str id)).filterMap fun f =>
        f.time_msg.map fun y => y id opcode time) world) := by
  rw [server.plugins_call_time_msg,PLUGIN_TO_SLOT_calls ready,holders,List.take_length,List.filterMap_filter,
    ← filterMap_filter_zipIdx (fun f => f.has .PLUGIN_FUNC_TIME_MSG)]
  · refine calls_runs ?_ world
    intro entry listed world
    obtain ⟨member,has⟩ := List.mem_filter.mp listed
    obtain ⟨p,there,functions,id_⟩ := ready.entries entry member
    obtain ⟨y,acts⟩ := Option.isSome_iff_exists.mp (show entry.1.time_msg.isSome from has)
    obtain ⟨name,is_⟩ := Option.isSome_iff_exists.mp (named entry.1 (List.fst_mem_of_mem_zipIdx member) has)
    rw [there,Option.bind_some,id_,is_,strcmp_named is_,functions,acts,Option.some_beq_some]
    cases name == c_str id with
    | false => rfl
    | true => rfl
  · intro f acts
    cases takes : f.time_msg with
    | none =>
      rw [takes,Option.map_none,ite_self] at acts
      exact absurd rfl acts
    | some y =>
      rw [functions.has,takes]
      rfl

/-- Before a plugin without an id nothing may end the scan of a message. -/
theorem calls_undefined {call : Nat → World → Option (handler_t × World)} {ps : List Nat}
    (passes : ∀ p ∈ ps, ∀ world, call p world = none ∨ call p world = some (.HANDLER_GO_ON,world))
    {p : Nat} (listed : p ∈ ps) (world : World) (undefined : call p world = none) : calls call ps world = none := by
  induction ps with
  | nil => cases listed
  | cons first ps ih =>
    obtain ⟨here,passes⟩ := List.forall_mem_cons.mp passes
    rw [calls]
    obtain none_ | goes := here world
    · rw [none_]
      rfl
    · obtain rfl | later := List.mem_cons.mp listed
      · cases undefined.symm.trans goes
      · rw [goes]
        exact ih passes later

/-- An id that no plugin has. -/
theorem exists_unnamed (descs : List plugin_desc) (loaded : List (functions World)) :
    ∃ id, ∀ f ∈ loaded, f.named descs ≠ some (c_str id) := by
  let lengths := (loaded.filterMap fun f => f.named descs).map List.length
  refine ⟨List.replicate (lengths.sum + 1) 1,fun f listed same => ?_⟩
  have member : (c_str (List.replicate (lengths.sum + 1) 1)).length ∈ lengths :=
    List.mem_map_of_mem (List.mem_filterMap.mpr ⟨f,listed,same⟩)
  have clean : c_str (List.replicate (lengths.sum + 1) 1) = List.replicate (lengths.sum + 1) 1 :=
    Storage.c_str_eq fun c among => by
      rw [List.eq_of_mem_replicate among]
      decide
  rw [clean,List.length_replicate] at member
  have most := List.le_sum_of_mem member
  omega

theorem Ready.undefined (ready : Ready descs loaded loaded.length srv) {id : List UInt8}
    (other : ∀ f ∈ loaded, f.named descs ≠ some (c_str id)) {f : functions World} (listed : f ∈ loaded) (takes : f.time_msg.isSome)
    (unnamed : f.named descs = none) (opcode time : Int32) (world : World) :
    srv.plugins_call_time_msg id opcode time world = none := by
  obtain ⟨k,there⟩ := List.mem_iff_getElem?.mp listed
  have entry : (f,k) ∈ loaded.zipIdx := List.mk_mem_zipIdx_iff_getElem?.mpr there
  have among : k ∈ holders loaded loaded.length .PLUGIN_FUNC_TIME_MSG := by
    rw [holders,List.take_length]
    exact List.mem_map.mpr ⟨(f,k),List.mem_filter.mpr ⟨entry,takes⟩,rfl⟩
  rw [server.plugins_call_time_msg,PLUGIN_TO_SLOT_calls ready]
  refine calls_undefined ?_ among world ?_
  · intro p held world
    rw [holders,List.take_length] at held
    obtain ⟨entry,member,rfl⟩ := List.mem_map.mp held
    have member := List.mem_of_mem_filter member
    obtain ⟨p,there,-,id_⟩ := ready.entries entry member
    rw [there,Option.bind_some,id_]
    cases is_ : entry.1.named descs with
    | none => exact .inl rfl
    | some name =>
      have apart : (name == c_str id) = false := by
        refine beq_false_of_ne fun same => ?_
        exact other entry.1 (List.fst_mem_of_mem_zipIdx member) (same ▸ is_)
      rw [strcmp_named is_,apart]
      exact .inr rfl
  · obtain ⟨p,there,-,id_⟩ := ready.entries (f,k) entry
    rw [there,Option.bind_some,id_,unnamed]
    rfl

end Ready

/-- The handlers of every kind are run as they should be, but for the messages of the
timer: those compare with an id that a plugin may not have. -/
theorem dispatches_iff {descs : List plugin_desc} {loaded : List (functions World)} {start srv : server World}
    (loads : server.plugins_load descs loaded = some start) (succeeds : start.plugins_call_init = some (.HANDLER_GO_ON,srv))
    (world : World) :
    Dispatches descs loaded srv ↔ ∀ f ∈ loaded, f.time_msg.isSome → (f.named descs).isSome := by
  obtain ⟨start',loads',done⟩ := plugins_load_spec descs loaded
  cases loads.symm.trans loads'
  have ready : Ready descs loaded loaded.length srv :=
    init_plugins_ready done.ready (by rw [done.used,Nat.zero_add]) succeeds
  constructor
  · intro dispatches f listed takes
    by_contra unnamed
    obtain ⟨id,other⟩ := exists_unnamed descs loaded
    have ran := dispatches.time_msg id 0 0 world
    rw [ready.undefined other listed takes (Option.not_isSome_iff_eq_none.mp unnamed)] at ran
    cases ran
  · intro named
    have simple {α : Type} (y : Option α) (g : α → World → handler_t × World) (world : World) :
        (y.map fun y => g y world) = (y.map g).map fun y => y world := by
      rw [Option.map_map]
      rfl
    refine ⟨?_,?_,?_,?_,?_,?_,?_,?_,?_,ready.dispatch_time named⟩
    · exact fun pd => ready.dispatch _ (fun f => Option.isSome_map.symm) fun p world => simple ..
    · exact ready.dispatch _ (fun f => rfl) fun p world => rfl
    · exact fun fd pd len => ready.dispatch _ (fun f => Option.isSome_map.symm) fun p world => simple ..
    · exact fun fd pd len => ready.dispatch _ (fun f => Option.isSome_map.symm) fun p world => simple ..
    · exact fun fd pd len => ready.dispatch _ (fun f => Option.isSome_map.symm) fun p world => simple ..
    · exact fun fd pd len => ready.dispatch _ (fun f => Option.isSome_map.symm) fun p world => simple ..
    · exact fun fd pd len => ready.dispatch _ (fun f => Option.isSome_map.symm) fun p world => simple ..
    · exact fun fd => ready.dispatch _ (fun f => Option.isSome_map.symm) fun p world => simple ..
    · exact fun fd => ready.dispatch _ (fun f => Option.isSome_map.symm) fun p world => simple ..

/-- A plugin that takes messages of the timer, and has no `init`. -/
def listener : functions Unit := { time_msg := some fun _ _ _ world => (.HANDLER_GO_ON,world) }

/-- The same with an `init`, and its descriptor. -/
def known : functions Unit := { listener with init := some (some ⟨some (ascii "chat"),some (ascii "1.0")⟩) }

def described : plugin_desc := ⟨some (ascii "chat"),some (ascii "chat"),some (ascii "1.0"),some (ascii "mig")⟩

theorem known_dispatches : ∃ start srv, server.plugins_load [described] [known] = some start ∧
    start.plugins_call_init = some (.HANDLER_GO_ON,srv) ∧
    (Dispatches [described] [known] srv ↔ ∀ f ∈ [known], f.time_msg.isSome → (f.named [described]).isSome) :=
  ⟨_,_,rfl,rfl,dispatches_iff rfl rfl ()⟩

theorem listener_undefined : ∃ start srv, server.plugins_load [] [listener] = some start ∧
    start.plugins_call_init = some (.HANDLER_GO_ON,srv) ∧ ¬Dispatches [] [listener] srv := by
  refine ⟨_,_,rfl,rfl,fun dispatches => ?_⟩
  cases dispatches.time_msg [] 0 0 ()

end Server
end Migfm.Chat.Plugins
