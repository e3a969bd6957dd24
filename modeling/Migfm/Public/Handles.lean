import Migfm.Library.Counted
import Migfm.Library.Runs
import Migfm.Library.Slots
import Migfm.Public.QueryString

/-! The handle classes, each with its own `Data` block, its constructors, its copy
constructor, its assignment and its destructor where it has one: `UserInfo`,
`MusicInfo` and `DetailMessage` of pub/logic/logic_infos, `HttpPacket` of
public/protocol/http_packet, `BaiduPushMessage` and `BaiDuPushMsgInfo` of
base/pushmsg/basic_push_info. Of a block only its count is here. -/
namespace Migfm.Public.Handles
open Library.Counted Library.Runs

/-! ### The counts -/

def INT_MAX : Int := 2147483647
def INT_MIN : Int := -2147483648

/-- `refcount_ ++` and `--refcount_`. -/
def increment (refcount_ : Int) : Option Int := if refcount_ = INT_MAX then none else some (refcount_ + 1)
def decrement (refcount_ : Int) : Option Int := if refcount_ = INT_MIN then none else some (refcount_ - 1)

/-- What the atomic operations leave; these wrap. -/
def fetch_and_add (refcount_ : Int) : Option Int := some (if refcount_ = INT_MAX then INT_MIN else refcount_ + 1)
def fetch_and_sub (refcount_ : Int) : Option Int := some (if refcount_ = INT_MIN then INT_MAX else refcount_ - 1)

/-- `if (data_!=NULL) data_->AddRef();` -/
def AddRef (up : Int → Option Int) : Option Nat → Blocks → Option Blocks
  | none,blocks => some blocks
  | some b,blocks => blocks.retain up b

/-- `if (data_!=NULL) data_->Release();` -/
def Release (down : Int → Option Int) : Option Nat → Blocks → Option Blocks
  | none,blocks => some blocks
  | some b,blocks => blocks.release down b

/-! ### The classes -/

inductive Class
  | UserInfo
  | MusicInfo
  | DetailMessage
  | HttpPacket
  | BaiduPushMessage
  | BaiDuPushMsgInfo
  deriving DecidableEq

/-- What the copy constructors do, but for one. -/
def copied (data_ : Option Nat) (blocks : Blocks) : Option Blocks := AddRef increment data_ blocks

/-- What `operator=` does, but for one: the other handle's block first. -/
def assigned (data_ other : Option Nat) (blocks : Blocks) : Option Blocks := (AddRef increment other blocks).bind (Release decrement data_)

def released (data_ : Option Nat) (blocks : Blocks) : Option Blocks := Release decrement data_ blocks

/-- The classes without a destructor. -/
def dropped (_ : Option Nat) (blocks : Blocks) : Option Blocks := some blocks

def UserInfo.copy := copied
def UserInfo.assign := assigned
def UserInfo.destroy := dropped

def MusicInfo.copy := copied
def MusicInfo.assign := assigned
def MusicInfo.destroy := dropped

/-- The pointer is copied and nothing else is done. -/
def DetailMessage.copy (_ : Option Nat) (blocks : Blocks) : Option Blocks := some blocks
def DetailMessage.assign := assigned
def DetailMessage.destroy := dropped

def HttpPacket.copy (data_ : Option Nat) (blocks : Blocks) : Option Blocks := AddRef fetch_and_add data_ blocks

/-- The handle's own block first. -/
def HttpPacket.assign (data_ packet : Option Nat) (blocks : Blocks) : Option Blocks :=
  (Release fetch_and_sub data_ blocks).bind (AddRef fetch_and_add packet)
def HttpPacket.destroy := dropped

def BaiduPushMessage.copy := copied
def BaiduPushMessage.assign := assigned
def BaiduPushMessage.destroy := released

def BaiDuPushMsgInfo.copy := copied
def BaiDuPushMsgInfo.assign := assigned
def BaiDuPushMsgInfo.destroy := released

def Class.copy : Class → Option Nat → Blocks → Option Blocks
  | .UserInfo => UserInfo.copy
  | .MusicInfo => MusicInfo.copy
  | .DetailMessage => DetailMessage.copy
  | .HttpPacket => HttpPacket.copy
  | .BaiduPushMessage => BaiduPushMessage.copy
  | .BaiDuPushMsgInfo => BaiDuPushMsgInfo.copy

def Class.assign : Class → Option Nat → Option Nat → Blocks → Option Blocks
  | .UserInfo => UserInfo.assign
  | .MusicInfo => MusicInfo.assign
  | .DetailMessage => DetailMessage.assign
  | .HttpPacket => HttpPacket.assign
  | .BaiduPushMessage => BaiduPushMessage.assign
  | .BaiDuPushMsgInfo => BaiDuPushMsgInfo.assign

def Class.destroy : Class → Option Nat → Blocks → Option Blocks
  | .UserInfo => UserInfo.destroy
  | .MusicInfo => MusicInfo.destroy
  | .DetailMessage => DetailMessage.destroy
  | .HttpPacket => HttpPacket.destroy
  | .BaiduPushMessage => BaiduPushMessage.destroy
  | .BaiDuPushMsgInfo => BaiDuPushMsgInfo.destroy

/-- The constructors, with the arguments that they do more with than keep them. -/
inductive Constructor
  | UserInfo
  | MusicInfo
  | DetailMessage
  | HttpPacket
  | HttpPacketOf (data : List UInt8) (len : Int32)
  | BaiduPushMessage
  | BaiduPushMessageTo
  | BaiduPushMessageLevel
  | BaiDuPushMsgInfo

def Constructor.class_ : Constructor → Class
  | .UserInfo => .UserInfo
  | .MusicInfo => .MusicInfo
  | .DetailMessage => .DetailMessage
  | .HttpPacket => .HttpPacket
  | .HttpPacketOf _ _ => .HttpPacket
  | .BaiduPushMessage => .BaiduPushMessage
  | .BaiduPushMessageTo => .BaiduPushMessage
  | .BaiduPushMessageLevel => .BaiduPushMessage
  | .BaiDuPushMsgInfo => .BaiDuPushMsgInfo

/-- What `Data` starts to count with. -/
def Constructor.refcount_ : Constructor → Int
  | .UserInfo => 1
  | .MusicInfo => 1
  | .DetailMessage => 1
  | .HttpPacket => 1
  | .HttpPacketOf _ _ => 1
  | .BaiduPushMessage => 1
  | .BaiduPushMessageTo => 1
  | .BaiduPushMessageLevel => 0
  | .BaiDuPushMsgInfo => 0

def stores : QueryString.Outcome → Bool
  | .stored _ => true
  | .out_of_range => false
  | .running => false

/-- Whether the constructor returns. `SetData` throws, or goes round for ever, where it has
not stored the pairs after that many turns. -/
def Constructor.returns : Constructor → Bool
  | .HttpPacketOf data len => stores (QueryString.SetData (data.length + 1) data len fun _ => none)
  | _ => true

/-! ### Programs -/

structure Handle where
  class_ : Class
  data_ : Option Nat

/-- The handles in the order they were made; a destroyed one leaves its place empty. -/
structure State where
  handles : List (Option Handle)
  blocks : Blocks

def start : State := ⟨[],none_⟩

inductive Statement
  | construct (made : Constructor)
  | copy (handle : Nat)
  | assign (handle other : Nat)
  | destroy (handle : Nat)

def State.live (state : State) (handle : Nat) : Option Handle := state.handles.getD handle none

/-- `none` is undefined behaviour. A statement about a handle that is not live, or about
two of different classes, is not in a program: it does nothing. -/
def step (state : State) : Statement → Option State
  | .construct made =>
    let (b,blocks) := state.blocks.alloc made.refcount_
    some ⟨if made.returns then state.handles ++ [some ⟨made.class_,some b⟩] else state.handles,blocks⟩
  | .copy handle =>
    match state.live handle with
    | none => some state
    | some source => (source.class_.copy source.data_ state.blocks).map fun blocks => ⟨state.handles ++ [some source],blocks⟩
  | .assign handle other =>
    match state.live handle,state.live other with
    | some target,some source =>
      if target.class_ = source.class_ then
        (target.class_.assign target.data_ source.data_ state.blocks).map fun blocks =>
          ⟨state.handles.set handle (some ⟨target.class_,source.data_⟩),blocks⟩
      else some state
    | _,_ => some state
  | .destroy handle =>
    match state.live handle with
    | none => some state
    | some last => (last.class_.destroy last.data_ state.blocks).map fun blocks => ⟨state.handles.set handle none,blocks⟩

/-! ### What is asked -/

def points (b : Nat) (slot : Option Handle) : Bool := slot.any fun handle => handle.data_ = some b

/-- How many live handles point to a block. -/
def pointing (handles : List (Option Handle)) (b : Nat) : Int := handles.countP (points b)

/-- A block counts the live handles that point to it and is there while there are any; it
is freed once, when the last has gone. -/
def Sound (state : State) : Prop := Counts (pointing state.handles) state.blocks

/-- After every statement of the program. -/
def AlwaysSound (program : List Statement) : Prop :=
  ∀ first, first <+: program → ∃ state, run step start first = some state ∧ Sound state

/-- `SetData` stores the pairs of the text. -/
def Constructor.Reads : Constructor → Prop
  | .HttpPacketOf data len => 0 ≤ len.toInt ∧ len.toInt ≤ data.length ∧ QueryString.Readable (data.take len.toInt.toNat)
  | _ => True

/-- What every statement has to be, in the state before it. -/
def Meets (state : State) : Statement → Prop
  | .construct made => made ≠ .BaiduPushMessageLevel ∧ made ≠ .BaiDuPushMsgInfo ∧ made.Reads
  | .copy handle => ∀ source b, state.live handle = some source → source.data_ = some b →
      source.class_ ≠ .DetailMessage ∧ pointing state.handles b ≠ INT_MAX
  | .assign handle other => ∀ target source b, state.live handle = some target → state.live other = some source →
      target.class_ = source.class_ → source.data_ = some b →
      -- the packet's own block is given back first
      let holders := if target.class_ = .HttpPacket then pointing state.handles - held target.data_ else pointing state.handles
      holders b ≠ 0 ∧ holders b ≠ INT_MAX
  | .destroy handle => ∀ last, state.live handle = some last →
      last.data_ = none ∨ last.class_ = .BaiduPushMessage ∨ last.class_ = .BaiDuPushMsgInfo

/-! ### One handle's part -/

section Parts
variable {holders : Nat → Int} {blocks : Blocks} {data_ other : Option Nat} {b : Nat}

theorem increment_iff {n : Int} : increment n = some (n + 1) ↔ n ≠ INT_MAX := by
  rw [increment]
  split
  · rename_i top
    exact iff_of_false nofun (not_not_intro top)
  · rename_i below
    exact iff_of_true rfl below

theorem fetch_and_add_iff {n : Int} : fetch_and_add n = some (n + 1) ↔ n ≠ INT_MAX := by
  rw [fetch_and_add]
  split
  · rename_i top
    refine iff_of_false (fun wrapped => ?_) (not_not_intro top)
    rw [top] at wrapped
    cases wrapped
  · rename_i below
    exact iff_of_true rfl below

theorem decrement_held {n : Int} (held : 0 < n) : decrement n = some (n - 1) := by
  apply if_neg
  rw [INT_MIN]
  omega

theorem fetch_and_sub_held {n : Int} (held : 0 < n) : fetch_and_sub n = some (n - 1) := by
  rw [fetch_and_sub,if_neg]
  rw [INT_MIN]
  omega

theorem AddRef_iff {up : Int → Option Int} (goes : ∀ n, up n = some (n + 1) ↔ n ≠ INT_MAX) (counts : Counts holders blocks)
    (some_ : ∀ b, 0 ≤ holders b) :
    (∃ after, AddRef up other blocks = some after ∧ Counts (holders + held other) after) ↔
      ∀ b, other = some b → holders b ≠ 0 ∧ holders b ≠ INT_MAX := by
  cases other with
  | none =>
    refine iff_of_true ⟨blocks,rfl,?_⟩ nofun
    rw [held_none,add_zero]
    exact counts
  | some b =>
    have one := @Counts.retain_iff holders blocks up b counts (some_ b)
    rw [goes] at one
    constructor
    · rintro counted _ ⟨⟩
      exact one.mp counted
    · intro room
      exact one.mpr (room b rfl)

/-- Where the count would overflow, nothing is left to count. -/
theorem AddRef_some {after : Blocks} (counts : Counts holders blocks) (added : AddRef increment other blocks = some after) :
    ∀ b, other = some b → holders b ≠ 0 ∧ holders b ≠ INT_MAX := by
  rintro b rfl
  obtain ⟨count,read,rest⟩ := Option.bind_eq_some_iff.mp added
  obtain ⟨more,goes,-⟩ := Option.bind_eq_some_iff.mp rest
  have holds : holders b ≠ 0 := by
    intro none_
    rw [counts.cell,if_pos none_] at read
    cases read
  obtain rfl : holders b = count := Option.some.inj ((counts.read holds).symm.trans read)
  refine ⟨holds,fun top => ?_⟩
  rw [increment,if_pos top] at goes
  cases goes

theorem Release_held {down : Int → Option Int} (goes : ∀ n, 0 < n → down n = some (n - 1)) (counts : Counts holders blocks)
    (holds : ∀ b, data_ = some b → 0 < holders b) :
    ∃ after, Release down data_ blocks = some after ∧ Counts (holders - held data_) after := by
  cases data_ with
  | none =>
    refine ⟨blocks,rfl,?_⟩
    rw [held_none,sub_zero]
    exact counts
  | some b =>
    have here := holds b rfl
    exact counts.release (Int.ne_of_gt here) (goes _ here)

/-- Nothing is done where something had to be. -/
theorem Counts.untouched {change : Nat → Int} (counts : Counts holders blocks) (changed : Counts (holders + change) blocks) :
    change = 0 := by
  have same := counts.unique changed
  exact left_eq_add.mp same

theorem held_ne_zero : held (some b) ≠ 0 := by
  intro same
  have one := congrFun same b
  rw [held_self] at one
  cases one

theorem copy_iff (class_ : Class) (counts : Counts holders blocks) (some_ : ∀ b, 0 ≤ holders b) (live : holders b ≠ 0) :
    (∃ after, class_.copy (some b) blocks = some after ∧ Counts (holders + held (some b)) after) ↔
      class_ ≠ .DetailMessage ∧ holders b ≠ INT_MAX := by
  have plain := @AddRef_iff holders blocks (some b) _ (fun _ => increment_iff) counts some_
  have atomic := @AddRef_iff holders blocks (some b) _ (fun _ => fetch_and_add_iff) counts some_
  have room : (∀ b', some b = some b' → holders b' ≠ 0 ∧ holders b' ≠ INT_MAX) ↔ holders b ≠ INT_MAX := by
    refine ⟨fun all => (all b rfl).2,?_⟩
    rintro below _ ⟨⟩
    exact ⟨live,below⟩
  rw [room] at plain atomic
  cases class_ with
  | DetailMessage =>
    refine iff_of_false ?_ fun other => other.1 rfl
    rintro ⟨_,⟨⟩,counted⟩
    exact held_ne_zero (Counts.untouched counts counted)
  | HttpPacket => exact atomic.trans (and_iff_right nofun).symm
  | _ => exact plain.trans (and_iff_right nofun).symm

theorem copy_null (class_ : Class) : class_.copy none blocks = some blocks := by
  cases class_ <;> rfl

theorem assigned_iff (counts : Counts holders blocks) (some_ : ∀ b, 0 ≤ holders b) (live : ∀ b, data_ = some b → 0 < holders b) :
    (∃ after, assigned data_ other blocks = some after ∧ Counts (holders - held data_ + held other) after) ↔
      ∀ b, other = some b → holders b ≠ 0 ∧ holders b ≠ INT_MAX := by
  constructor
  · rintro ⟨after,assigned_,-⟩
    obtain ⟨mid,added,-⟩ := Option.bind_eq_some_iff.mp assigned_
    exact AddRef_some counts added
  · intro room
    obtain ⟨mid,added,counted⟩ := (AddRef_iff (fun _ => increment_iff) counts some_).mpr room
    have still (b : Nat) (here : data_ = some b) : 0 < (holders + held other) b := by
      have positive := live b here
      rw [Pi.add_apply,held]
      split <;> omega
    obtain ⟨after,given,counted⟩ := Release_held (fun _ => decrement_held) counted still
    refine ⟨after,?_,?_⟩
    · rw [assigned,added,Option.bind_some,given]
    · rw [sub_add_eq_add_sub]
      exact counted

theorem HttpPacket.assign_iff (counts : Counts holders blocks) (live : ∀ b, data_ = some b → 0 < holders b)
    (some_ : ∀ b, 0 ≤ holders b) :
    (∃ after, HttpPacket.assign data_ other blocks = some after ∧ Counts (holders - held data_ + held other) after) ↔
      ∀ b, other = some b → (holders - held data_) b ≠ 0 ∧ (holders - held data_) b ≠ INT_MAX := by
  obtain ⟨mid,given,counted⟩ := Release_held (fun _ => fetch_and_sub_held) counts live
  have left (b : Nat) : 0 ≤ (holders - held data_) b := by
    have positive := some_ b
    rw [Pi.sub_apply,held]
    split
    · rename_i here
      have held_ := live b here
      omega
    · omega
  rw [HttpPacket.assign,given,Option.bind_some]
  exact AddRef_iff (fun _ => fetch_and_add_iff) counted left

/-- Assigned to itself, the only handle frees its block and then counts on it. -/
theorem HttpPacket.assign_self (counts : Counts holders blocks) (only : holders b = 1) :
    HttpPacket.assign (some b) (some b) blocks = none := by
  have live (c : Nat) (here : some b = some c) : 0 < holders c := by
    cases here
    omega
  obtain ⟨mid,given,counted⟩ := Release_held (fun _ => fetch_and_sub_held) counts live
  have gone : (holders - held (some b)) b = 0 := by rw [Pi.sub_apply,held_self,only,Int.sub_self]
  rw [HttpPacket.assign,given,Option.bind_some,AddRef,Blocks.retain,counted.cell,if_pos gone]
  rfl

theorem destroy_iff (class_ : Class) (counts : Counts holders blocks) (live : ∀ b, data_ = some b → 0 < holders b) :
    (∃ after, class_.destroy data_ blocks = some after ∧ Counts (holders - held data_) after) ↔
      data_ = none ∨ class_ = .BaiduPushMessage ∨ class_ = .BaiDuPushMsgInfo := by
  have given := Release_held (fun _ => decrement_held) counts live
  have kept : (∃ after, dropped data_ blocks = some after ∧ Counts (holders - held data_) after) ↔ data_ = none := by
    constructor
    · rintro ⟨_,⟨⟩,counted⟩
      cases data_ with
      | none => rfl
      | some b =>
        rw [sub_eq_add_neg] at counted
        exact absurd (neg_eq_zero.mp (Counts.untouched counts counted)) held_ne_zero
    · rintro rfl
      refine ⟨blocks,rfl,?_⟩
      rw [held_none,sub_zero]
      exact counts
  cases class_ with
  | BaiduPushMessage => exact iff_of_true given (.inr (.inl rfl))
  | BaiDuPushMsgInfo => exact iff_of_true given (.inr (.inr rfl))
  | _ => exact kept.trans (by simp)

end Parts

/-! ### Who points where -/

section Pointing
variable {handles : List (Option Handle)} {state : State} {i : Nat} {old : Handle}

theorem pointing_nonneg (handles : List (Option Handle)) (b : Nat) : 0 ≤ pointing handles b := Int.natCast_nonneg _

theorem live_iff : state.live i = some old ↔ state.handles[i]? = some (some old) := by
  rw [State.live,List.getD_eq_getElem?_getD]
  cases state.handles[i]? with
  | none => exact iff_of_false nofun nofun
  | some slot => exact Option.some_inj.symm

theorem points_iff {handle : Handle} {b : Nat} : points b (some handle) = true ↔ handle.data_ = some b := by
  rw [points,Option.any_some,decide_eq_true_iff]

theorem points_held (handle : Handle) (b : Nat) :
    ((if points b (some handle) = true then 1 else 0 : Nat) : Int) = held handle.data_ b := by
  by_cases here : handle.data_ = some b
  · rw [held,if_pos here,if_pos (points_iff.mpr here)]
    rfl
  · rw [held,if_neg here,if_neg fun same => here (points_iff.mp same)]
    rfl

theorem pointing_append (new : Handle) : pointing (handles ++ [some new]) = pointing handles + held new.data_ := by
  funext b
  rw [Pi.add_apply,← points_held,pointing,pointing,List.countP_append,List.countP_singleton,Int.natCast_add]

theorem pointing_set_some (here : handles[i]? = some (some old)) (new : Handle) :
    pointing (handles.set i (some new)) = pointing handles - held old.data_ + held new.data_ := by
  funext b
  have counted := Library.Slots.countP_set here (some new) (points b)
  rw [Pi.add_apply,Pi.sub_apply,← points_held,← points_held,pointing,pointing]
  omega

theorem pointing_set_none (here : handles[i]? = some (some old)) :
    pointing (handles.set i none) = pointing handles - held old.data_ := by
  funext b
  have counted := Library.Slots.countP_set here none (points b)
  rw [if_neg (show ¬points b none = true from Bool.false_ne_true)] at counted
  rw [Pi.sub_apply,← points_held,pointing,pointing]
  omega

theorem pointing_live (here : handles[i]? = some (some old)) {b : Nat} (pointed : old.data_ = some b) : 0 < pointing handles b := by
  apply Int.natCast_pos.mpr
  exact List.countP_pos_iff.mpr ⟨some old,List.mem_of_getElem? here,points_iff.mpr pointed⟩

end Pointing

/-! ### Statements -/

theorem stores_iff {outcome : QueryString.Outcome} : stores outcome = true ↔ ∃ map_value_, outcome = .stored map_value_ := by
  cases outcome with
  | stored map_value_ => exact iff_of_true rfl ⟨map_value_,rfl⟩
  | out_of_range => exact iff_of_false nofun nofun
  | running => exact iff_of_false nofun nofun

theorem returns_iff (made : Constructor) : made.returns = true ↔ made.Reads := by
  cases made with
  | HttpPacketOf data len =>
    rw [Constructor.returns,stores_iff,Constructor.Reads,QueryString.SetData]
    by_cases inside : 0 ≤ len.toInt ∧ len.toInt ≤ data.length
    · rw [if_pos inside]
      have enough : (data.take len.toInt.toNat).length < data.length + 1 := by
        rw [List.length_take]
        omega
      constructor
      · rintro ⟨stored,ends⟩
        exact ⟨inside.1,inside.2,QueryString.readable_of_stored ends⟩
      · rintro ⟨-,-,readable⟩
        exact QueryString.stored_of_readable readable len.toInt.toNat enough fun _ => none
    · rw [if_neg inside]
      constructor
      · rintro ⟨_,stored⟩
        cases stored
      · exact fun reads => absurd ⟨reads.1,reads.2.1⟩ inside
  | _ => exact iff_of_true rfl trivial

theorem refcount_iff (made : Constructor) : made.refcount_ = 1 ↔ made ≠ .BaiduPushMessageLevel ∧ made ≠ .BaiDuPushMsgInfo := by
  cases made with
  | BaiduPushMessageLevel => exact iff_of_false nofun fun other => other.1 rfl
  | BaiDuPushMsgInfo => exact iff_of_false nofun fun other => other.2 rfl
  | _ => exact iff_of_true rfl ⟨nofun,nofun⟩

section Statements
variable {state : State}

theorem construct_iff (sound : Sound state) (made : Constructor) :
    (∃ next, step state (.construct made) = some next ∧ Sound next) ↔ Meets state (.construct made) := by
  rw [Meets,← and_assoc,← refcount_iff,← returns_iff]
  have fresh := Counts.alloc_iff sound made.refcount_
  constructor
  · rintro ⟨_,⟨⟩,after⟩
    by_cases returned : made.returns = true
    · rw [Sound,if_pos returned,pointing_append] at after
      exact ⟨fresh.mp after,returned⟩
    · rw [Sound,if_neg returned] at after
      -- the block stays, and nobody points to it
      have cell := after.cell state.blocks.counts.next
      have unheld : pointing state.handles state.blocks.counts.next = 0 := Counts.next sound
      simp only [Library.Heap.alloc_cell_self,unheld] at cell
      cases cell
  · rintro ⟨one,returned⟩
    refine ⟨_,rfl,?_⟩
    rw [Sound,if_pos returned,pointing_append]
    exact fresh.mpr one

theorem copy_statement_iff (sound : Sound state) (handle : Nat) :
    (∃ next, step state (.copy handle) = some next ∧ Sound next) ↔ Meets state (.copy handle) := by
  rw [Meets,step]
  cases found : state.live handle with
  | none => exact iff_of_true ⟨state,rfl,sound⟩ nofun
  | some source =>
    have here := live_iff.mp found
    have appended (blocks : Blocks) : Sound ⟨state.handles ++ [some source],blocks⟩ ↔
        Counts (pointing state.handles + held source.data_) blocks := by rw [Sound,pointing_append]
    have only : (∃ next, (source.class_.copy source.data_ state.blocks).map
        (fun blocks => (⟨state.handles ++ [some source],blocks⟩ : State)) = some next ∧ Sound next) ↔
        ∃ after, source.class_.copy source.data_ state.blocks = some after ∧
          Counts (pointing state.handles + held source.data_) after := by
      simp only [Option.map_eq_some_iff,← appended]
      constructor
      · rintro ⟨_,⟨blocks,copied_,rfl⟩,counted⟩
        exact ⟨blocks,copied_,counted⟩
      · rintro ⟨blocks,copied_,counted⟩
        exact ⟨_,⟨blocks,copied_,rfl⟩,counted⟩
    refine only.trans ?_
    cases pointer : source.data_ with
    | none =>
      rw [copy_null,held_none,add_zero]
      refine iff_of_true ⟨_,rfl,sound⟩ ?_
      rintro _ b ⟨⟩ pointed
      cases pointer.symm.trans pointed
    | some b =>
      have live := pointing_live here pointer
      refine (copy_iff source.class_ sound (pointing_nonneg _) (Int.ne_of_gt live)).trans ?_
      constructor
      · rintro room _ b' ⟨⟩ pointed
        cases pointer.symm.trans pointed
        exact room
      · intro all
        exact all source b rfl pointer

theorem assign_statement_iff (sound : Sound state) (handle other : Nat) :
    (∃ next, step state (.assign handle other) = some next ∧ Sound next) ↔ Meets state (.assign handle other) := by
  rw [Meets,step]
  cases found : state.live handle with
  | none => exact iff_of_true ⟨state,rfl,sound⟩ nofun
  | some target =>
    cases second : state.live other with
    | none => exact iff_of_true ⟨state,rfl,sound⟩ nofun
    | some source =>
      by_cases same : target.class_ = source.class_
      · have here := live_iff.mp found
        have live (b : Nat) (pointed : target.data_ = some b) : 0 < pointing state.handles b := pointing_live here pointed
        have placed (blocks : Blocks) : Sound ⟨state.handles.set handle (some ⟨target.class_,source.data_⟩),blocks⟩ ↔
            Counts (pointing state.handles - held target.data_ + held source.data_) blocks := by
          rw [Sound,pointing_set_some here]
        have only : (∃ next, (target.class_.assign target.data_ source.data_ state.blocks).map
            (fun blocks => (⟨state.handles.set handle (some ⟨target.class_,source.data_⟩),blocks⟩ : State)) = some next ∧ Sound next) ↔
            ∃ after, target.class_.assign target.data_ source.data_ state.blocks = some after ∧
              Counts (pointing state.handles - held target.data_ + held source.data_) after := by
          simp only [Option.map_eq_some_iff,← placed]
          constructor
          · rintro ⟨_,⟨blocks,assigned_,rfl⟩,counted⟩
            exact ⟨blocks,assigned_,counted⟩
          · rintro ⟨blocks,assigned_,counted⟩
            exact ⟨_,⟨blocks,assigned_,rfl⟩,counted⟩
        simp only [if_pos same]
        refine only.trans ?_
        have packet := @HttpPacket.assign_iff _ _ _ source.data_ sound live (pointing_nonneg _)
        have plain := @assigned_iff _ _ _ source.data_ sound (pointing_nonneg _) live
        constructor
        · rintro counted _ _ b ⟨⟩ ⟨⟩ - pointed
          cases kind : target.class_ with
          | HttpPacket =>
            rw [kind] at counted
            exact packet.mp counted b pointed
          | _ =>
            rw [kind] at counted
            exact plain.mp counted b pointed
        · intro all
          have room (b : Nat) (pointed : source.data_ = some b) := all target source b rfl rfl same pointed
          cases kind : target.class_ with
          | HttpPacket =>
            simp only [kind] at room
            exact packet.mpr room
          | _ =>
            simp only [kind] at room
            exact plain.mpr room
      · simp only [if_neg same]
        refine iff_of_true ⟨state,rfl,sound⟩ ?_
        rintro _ _ b ⟨⟩ ⟨⟩ alike
        exact absurd alike same

theorem destroy_statement_iff (sound : Sound state) (handle : Nat) :
    (∃ next, step state (.destroy handle) = some next ∧ Sound next) ↔ Meets state (.destroy handle) := by
  rw [Meets,step]
  cases found : state.live handle with
  | none => exact iff_of_true ⟨state,rfl,sound⟩ nofun
  | some last =>
    have here := live_iff.mp found
    have only : (∃ next, (last.class_.destroy last.data_ state.blocks).map
        (fun blocks => (⟨state.handles.set handle none,blocks⟩ : State)) = some next ∧ Sound next) ↔
        ∃ after, last.class_.destroy last.data_ state.blocks = some after ∧ Counts (pointing state.handles - held last.data_) after := by
      simp only [Option.map_eq_some_iff,← pointing_set_none here]
      constructor
      · rintro ⟨_,⟨blocks,destroyed,rfl⟩,counted⟩
        exact ⟨blocks,destroyed,counted⟩
      · rintro ⟨blocks,destroyed,counted⟩
        exact ⟨_,⟨blocks,destroyed,rfl⟩,counted⟩
    refine only.trans ((destroy_iff last.class_ sound fun b => pointing_live here).trans ?_)
    constructor
    · rintro either _ ⟨⟩
      exact either
    · intro all
      exact all last rfl

theorem step_iff (sound : Sound state) (statement : Statement) :
    (∃ next, step state statement = some next ∧ Sound next) ↔ Meets state statement := by
  cases statement with
  | construct made => exact construct_iff sound made
  | copy handle => exact copy_statement_iff sound handle
  | assign handle other => exact assign_statement_iff sound handle other
  | destroy handle => exact destroy_statement_iff sound handle

end Statements

theorem start_sound : Sound start := counts_none

/-- What is asked holds of a program where every statement is one that the classes count. -/
theorem alwaysSound_iff (program : List Statement) : AlwaysSound program ↔ Along step Meets start program := by
  exact always_iff (fun sound => step_iff sound _) start_sound program

/-- A user is made and goes; its block stays. -/
theorem user_leaks : ¬AlwaysSound [.construct .UserInfo,.destroy 0] := by
  intro always
  obtain ⟨_,⟨⟩,sound⟩ := always _ (List.prefix_refl _)
  cases sound.cell 0

end Migfm.Public.Handles
