import Migfm.Public.UrlEncode
import Migfm.Logic.ValueSerializer

/-! `BaiDuPushMsgInfo` of base/pushmsg: the parameters are shared by the copies of an object, the signature and
the body that were made of them are each object's own. -/
namespace Migfm.Push
open Logic (ascii decimal)
open Public (UrlEncode encoded Special)

/-! ### The objects -/

abbrev ParamMap := Std.ExtTreeMap (List UInt8) (List UInt8)

/-- What is signed. -/
structure Values where
  method_ : List UInt8
  url_ : List UInt8
  secret_ : List UInt8
  param_map_ : ParamMap

structure Data extends Values where
  refcount_ : Int

/-- `data_` is an address. -/
structure BaiDuPushMsgInfo where
  data_ : Nat
  hexdigest_ : List UInt8
  content_ : List UInt8
  sign_change_ : Bool
  data_change_ : Bool

/-- The objects, and the memory; what is freed is `none`. -/
structure State where
  objects : List BaiDuPushMsgInfo
  memory : List (Option Data)

def start : State := ⟨[],[]⟩

/-- An operation on the objects, in the order in which they were made. -/
inductive Op
  | create
  | copy (push_msg_info : Nat)
  | assign (this push_msg_info : Nat)
  | set_value (this : Nat) (key value : List UInt8)
  | set_number (this : Nat) (key : List UInt8) (value : Int64)
  | set_method (this : Nat) (method : List UInt8)
  | set_url (this : Nat) (url : List UInt8)
  | set_secret (this : Nat) (secret : List UInt8)
  | GetSign (this : Nat)
  | GetContent (this : Nat)

def Values.params (values : Values) : List (List UInt8 × List UInt8) := values.param_map_.toList

def Values.text (values : Values) : List UInt8 :=
  values.method_ ++ values.url_ ++ (values.params.flatMap fun (key,value) => key ++ 61::value) ++ values.secret_

def Data.AddRef (data : Data) : Option Data := some { data with refcount_ := data.refcount_ + 1 }

/-- The last reference frees the data. -/
def Data.Release (data : Data) : Option Data :=
  if data.refcount_ - 1 = 0 then none else some { data with refcount_ := data.refcount_ - 1 }

/-- The data at an address, if it is not freed. -/
def State.data (s : State) (data_ : Nat) : Option Data := s.memory[data_]?.join

/-- There is none if the data is freed already. -/
def State.change (s : State) (data_ : Nat) (f : Data → Option Data) : Option State :=
  (s.data data_).map fun data => { s with memory := s.memory.set data_ (f data) }

section Calls
variable (digest : List UInt8 → Fin 16 → UInt8)

def hexDigit (n : UInt8) : UInt8 := if n < 10 then 48 + n else 87 + n

/-- `%02x` of each byte of the digest. -/
def MD5Sum (source : List UInt8) : List UInt8 :=
  (List.finRange 16).flatMap fun i => [hexDigit (digest source i / 16),hexDigit (digest source i % 16)]

/-- Where `UrlEncode` fails it leaves `url_content` empty. -/
def Calculate (values : Values) (object : BaiDuPushMsgInfo) : BaiDuPushMsgInfo :=
  { object with hexdigest_ := MD5Sum digest ((UrlEncode values.text).getD []),sign_change_ := false }

def GetSign (values : Values) (object : BaiDuPushMsgInfo) : BaiDuPushMsgInfo :=
  if object.hexdigest_ = [] ∨ object.sign_change_ then Calculate digest values object else object

def pieces (values : Values) : List (List UInt8) := values.params.map fun (key,value) => key ++ 61::value

def Package (values : Values) (object : BaiDuPushMsgInfo) : BaiDuPushMsgInfo :=
  let object := GetSign digest values object
  { object with content_ := [38].intercalate (pieces values) ++ ascii "&sign=" ++ object.hexdigest_,data_change_ := false }

def GetContent (values : Values) (object : BaiDuPushMsgInfo) : BaiDuPushMsgInfo :=
  if object.content_ = [] ∨ object.data_change_ then Package digest values object else object

/-- A setter of the data that is there, with what it does to its object. -/
def State.set (s : State) (this : Nat) (f : Values → Values) (g : BaiDuPushMsgInfo → BaiDuPushMsgInfo) : Option State :=
  match s.objects[this]? with
  | none => some s
  | some object => (s.change object.data_ fun data => some { data with toValues := f data.toValues }).map
      fun s => { s with objects := s.objects.set this (g object) }

/-- A call of the object with its data. -/
def State.call (s : State) (this : Nat) (f : Values → BaiDuPushMsgInfo → BaiDuPushMsgInfo)
    (answer : BaiDuPushMsgInfo → List UInt8) : Option (State × List UInt8) :=
  match s.objects[this]? with
  | none => some (s,[])
  | some object => (s.data object.data_).map fun data =>
      ({ s with objects := s.objects.set this (f data.toValues object) },answer (f data.toValues object))

def set_value (s : State) (this : Nat) (key value : List UInt8) : Option State :=
  if value = [] then some s
  else s.set this (fun values => { values with param_map_ := values.param_map_.insert key value })
    fun object => { object with sign_change_ := true,data_change_ := true }

/-- The state then and what is returned; there is none when freed data is used. Nothing is done to an object that
is not there. -/
def step (s : State) : Op → Option (State × List UInt8)
  | .create =>
    some (⟨s.objects ++ [⟨s.memory.length,[],[],false,false⟩],s.memory ++ [some ⟨⟨[],[],[],∅⟩,0⟩]⟩,[])
  | .copy push_msg_info =>
    match s.objects[push_msg_info]? with
    | none => some (s,[])
    | some object => (s.change object.data_ Data.AddRef).map fun s =>
        ({ s with objects := s.objects ++ [⟨object.data_,[],[],false,false⟩] },[])
  | .assign this push_msg_info =>
    match s.objects[this]?,s.objects[push_msg_info]? with
    | some object,some other => ((s.change other.data_ Data.AddRef).bind fun s => s.change object.data_ Data.Release).map
        fun s => ({ s with objects := s.objects.set this { object with data_ := other.data_ } },[])
    | _,_ => some (s,[])
  | .set_value this key value => (set_value s this key value).map fun s => (s,[])
  | .set_number this key value =>
    if value = 0 then some (s,[]) else (set_value s this key (decimal value.toInt)).map fun s => (s,[])
  | .set_method this method => (s.set this (fun values => { values with method_ := method }) id).map fun s => (s,[])
  | .set_url this url => (s.set this (fun values => { values with url_ := url }) id).map fun s => (s,[])
  | .set_secret this secret => (s.set this (fun values => { values with secret_ := secret }) id).map fun s => (s,[])
  | .GetSign this => s.call this (GetSign digest) (·.hexdigest_)
  | .GetContent this => s.call this (GetContent digest) (·.content_)

def run (ops : List Op) : Option State := ops.foldlM (fun s op => (step digest s op).map Prod.fst) start

/-! ### What is promised -/

def sign (values : Values) : List UInt8 := MD5Sum digest (encoded values.text)

/-- A piece at its first `=`. -/
def pair (piece : List UInt8) : Option (List UInt8 × List UInt8) :=
  if 61 ∈ piece then some (piece.takeWhile (· ≠ 61),(piece.dropWhile (· ≠ 61)).tail) else none

def pairs (content : List UInt8) : Option (List (List UInt8 × List UInt8)) := (content.splitOn 38).mapM pair

/-- The answer is made of the values that the object's data has now. -/
def Answers (s : State) (answer : List UInt8) : Op → Prop
  | .GetSign this => ∀ object data, s.objects[this]? = some object → s.data object.data_ = some data →
      answer = sign digest data.toValues
  | .GetContent this => ∀ object data, s.objects[this]? = some object → s.data object.data_ = some data →
      ∃ found, pairs answer = some found ∧ found.Perm (data.params ++ [(ascii "sign",sign digest data.toValues)])
  | _ => True

/-- No operation uses freed data, and every answer is of the present. -/
def Right (ops : List Op) : Prop :=
  ∀ before op after, ops = before ++ op::after → ∃ s next answer,
    run digest before = some s ∧ step digest s op = some (next,answer) ∧ Answers digest s answer op

/-! ### Where it is right -/

/-- The values that each object's signature and body were made of last. -/
structure Watch where
  signed : Nat → Option Values
  packed : Nat → Option Values

def signs (object : BaiDuPushMsgInfo) : Prop := object.hexdigest_ = [] ∨ object.sign_change_ = true

def packs (object : BaiDuPushMsgInfo) : Prop := object.content_ = [] ∨ object.data_change_ = true

instance (object : BaiDuPushMsgInfo) : Decidable (signs object) := inferInstanceAs (Decidable (_ ∨ _))

instance (object : BaiDuPushMsgInfo) : Decidable (packs object) := inferInstanceAs (Decidable (_ ∨ _))

def Watch.sign (w : Watch) (this : Nat) (object : BaiDuPushMsgInfo) (values : Values) : Watch :=
  if signs object then { w with signed := Function.update w.signed this (some values) } else w

def Watch.pack (w : Watch) (this : Nat) (object : BaiDuPushMsgInfo) (values : Values) : Watch :=
  if packs object then { w.sign this object values with packed := Function.update w.packed this (some values) } else w

def watch (s : State) (w : Watch) : Op → Watch
  | .GetSign this => match s.objects[this]? with
    | none => w
    | some object => match s.data object.data_ with
      | none => w
      | some data => w.sign this object data.toValues
  | .GetContent this => match s.objects[this]? with
    | none => w
    | some object => match s.data object.data_ with
      | none => w
      | some data => w.pack this object data.toValues
  | _ => w

def watched (ops : List Op) : Option (State × Watch) :=
  ops.foldlM (fun (s,w) op => (step digest s op).map fun next => (next.1,watch s w op)) (start,⟨fun _ => none,fun _ => none⟩)

/-- The text is short enough, and has a byte that is not escaped if it has any. -/
def Encodes (content : List UInt8) : Prop := content = [] ∨ (3 * content.length < 2 ^ 31 ∧ ∃ ch ∈ content, ¬Special ch)

/-- There are parameters, and no `&`, and no `=` in a key. -/
def Plain (values : Values) : Prop :=
  values.params ≠ [] ∧ ∀ key value, (key,value) ∈ values.params → 38 ∉ key ∧ 61 ∉ key ∧ 38 ∉ value

/-- How many objects have the data. -/
def State.holders (s : State) (data_ : Nat) : Nat := s.objects.countP (·.data_ = data_)

/-- The signature is made now, or of the same values. -/
def Signed (w : Watch) (this : Nat) (object : BaiDuPushMsgInfo) (values : Values) : Prop :=
  if signs object then Encodes values.text else w.signed this = some values

def Packed (w : Watch) (this : Nat) (object : BaiDuPushMsgInfo) (values : Values) : Prop :=
  if packs object then Signed w this object values ∧ Plain values else w.packed this = some values

/-- An assignment leaves no object alone with data that two had, and is not of an object that has its data alone to
itself. -/
def Fits (s : State) (w : Watch) : Op → Prop
  | .assign this push_msg_info => ∀ object other, s.objects[this]? = some object → s.objects[push_msg_info]? = some other →
      s.holders object.data_ ≠ if object.data_ = other.data_ then 1 else 2
  | .GetSign this => ∀ object data, s.objects[this]? = some object → s.data object.data_ = some data →
      Signed w this object data.toValues
  | .GetContent this => ∀ object data, s.objects[this]? = some object → s.data object.data_ = some data →
      Packed w this object data.toValues
  | _ => True

def Good (ops : List Op) : Prop :=
  ∀ before op after s w, ops = before ++ op::after → watched digest before = some (s,w) → Fits s w op

end Calls

/-! ### The texts -/

section Texts
variable (digest : List UInt8 → Fin 16 → UInt8)

theorem hexDigit_ne (n : UInt8) (digit : n < 16) : hexDigit n ≠ 38 := by
  have each : ∀ n < 16, hexDigit (UInt8.ofNat n) ≠ 38 := by decide
  have here := each n.toNat digit
  rwa [UInt8.ofNat_toNat] at here

theorem MD5Sum_clean (source : List UInt8) : 38 ∉ MD5Sum digest source := by
  intro member
  obtain ⟨i,-,listed⟩ := List.mem_flatMap.mp member
  have high : digest source i / 16 < 16 := by
    rw [UInt8.lt_iff_toNat_lt,UInt8.toNat_div]
    exact (Nat.div_lt_iff_lt_mul (by decide)).mpr (UInt8.toNat_lt _)
  have low : digest source i % 16 < 16 := by
    rw [UInt8.lt_iff_toNat_lt,UInt8.toNat_mod]
    exact Nat.mod_lt _ (by decide)
  rw [List.mem_pair] at listed
  rcases listed with same | same
  · exact hexDigit_ne _ high same.symm
  · exact hexDigit_ne _ low same.symm

theorem encoded_text {content : List UInt8} (encodes : Encodes content) : (UrlEncode content).getD [] = encoded content := by
  rcases encodes with rfl | ⟨small,common⟩
  · rfl
  · have some_ : content ≠ [] := by
      rintro rfl
      obtain ⟨ch,member,-⟩ := common
      exact List.not_mem_nil member
    have room : (([] : List UInt8).length : Int) + 3 * content.length = (Int32.ofNat content.length * 3).toInt := by
      rw [Public.resultSize_small small,List.length_nil]
      omega
    rw [Public.UrlEncode_small some_ small,Public.UrlEncodeLoop_tight room common]
    rfl

theorem pair_piece {key : List UInt8} (clean : 61 ∉ key) (value : List UInt8) : pair (key ++ 61::value) = some (key,value) := by
  have all (c : UInt8) (member : c ∈ key) : decide (c ≠ 61) = true := decide_eq_true fun same => clean (same ▸ member)
  rw [pair,if_pos (List.mem_append_right _ List.mem_cons_self),List.takeWhile_append_of_pos all,List.dropWhile_append_of_pos all,
    List.takeWhile_cons_of_neg (by simp),List.dropWhile_cons_of_neg (by simp),List.append_nil,List.tail_cons]

/-- The body of these values. -/
def body (values : Values) : List UInt8 := [38].intercalate (pieces values) ++ ascii "&sign=" ++ sign digest values

theorem pieces_pairs {params : List (List UInt8 × List UInt8)} (clean : ∀ key value, (key,value) ∈ params → 61 ∉ key) :
    (params.map fun (key,value) => key ++ 61::value).mapM pair = some params := by
  induction params with
  | nil => rfl
  | cons param params ih =>
    obtain ⟨key,value⟩ := param
    rw [List.map_cons,List.mapM_cons,pair_piece (clean key value List.mem_cons_self),
      ih fun key value member => clean key value (List.mem_cons_of_mem _ member)]
    rfl

theorem intercalate_concat (separator last : List UInt8) {pieces : List (List UInt8)} (some_ : pieces ≠ []) :
    separator.intercalate (pieces ++ [last]) = separator.intercalate pieces ++ separator ++ last := by
  induction pieces with
  | nil => exact absurd rfl some_
  | cons first pieces ih =>
    cases pieces with
    | nil => rw [List.singleton_append,List.intercalate_cons_cons,List.intercalate_singleton,List.intercalate_singleton]
    | cons second pieces =>
      rw [List.cons_append,List.cons_append,List.intercalate_cons_cons,← List.cons_append,ih (List.cons_ne_nil _ _),
        List.intercalate_cons_cons]
      simp only [List.append_assoc]

/-- A body is its pieces, of which the signature is the last. -/
theorem body_pieces {values : Values} (some_ : values.params ≠ []) :
    body digest values = [38].intercalate (pieces values ++ [ascii "sign" ++ 61::sign digest values]) := by
  have some_pieces : pieces values ≠ [] := fun none_ => some_ (List.map_eq_nil_iff.mp none_)
  rw [intercalate_concat _ _ some_pieces,body,List.append_assoc,List.append_assoc]
  rfl

theorem body_pairs {values : Values} (plain : Plain values) :
    pairs (body digest values) = some (values.params ++ [(ascii "sign",sign digest values)]) := by
  obtain ⟨some_,clean⟩ := plain
  have keys : ∀ key value, (key,value) ∈ values.params ++ [(ascii "sign",sign digest values)] → 61 ∉ key := by
    intro key value member
    rcases List.mem_append.mp member with member | member
    · exact (clean key value member).2.1
    · cases List.mem_singleton.mp member
      decide
  have apart : ∀ piece ∈ pieces values ++ [ascii "sign" ++ 61::sign digest values], 38 ∉ piece := by
    intro piece member found
    rcases List.mem_append.mp member with member | member
    · obtain ⟨⟨key,value⟩,listed,rfl⟩ := List.mem_map.mp member
      obtain ⟨key_clean,-,value_clean⟩ := clean key value listed
      rcases List.mem_append.mp found with found | found
      · exact key_clean found
      · rcases List.mem_cons.mp found with same | found
        · exact absurd same (by decide)
        · exact value_clean found
    · cases List.mem_singleton.mp member
      rcases List.mem_append.mp found with found | found
      · exact absurd found (by decide)
      · rcases List.mem_cons.mp found with same | found
        · exact absurd same (by decide)
        · exact MD5Sum_clean digest _ found
  rw [pairs,body_pieces digest some_,List.splitOn_intercalate _ apart (List.append_ne_nil_of_right_ne_nil _ (List.cons_ne_nil _ _))]
  have whole := pieces_pairs keys
  rw [List.map_append] at whole
  exact whole

end Texts

/-! ### What the run keeps -/

section Runs
variable {digest : List UInt8 → Fin 16 → UInt8}

/-- The data of every object is there and knows how many have it, and what an object keeps was made of the values
that are watched. -/
structure Inv (digest : List UInt8 → Fin 16 → UInt8) (s : State) (w : Watch) : Prop where
  alive : ∀ object ∈ s.objects, ∃ data, s.data object.data_ = some data
  counted : ∀ data_ data, s.data data_ = some data → data.refcount_ + 1 = s.holders data_
  signed : ∀ (this : Nat) object, s.objects[this]? = some object → object.hexdigest_ ≠ [] →
    ∃ values, w.signed this = some values ∧ object.hexdigest_ = sign digest values
  packed : ∀ (this : Nat) object, s.objects[this]? = some object → object.content_ ≠ [] →
    ∃ values, w.packed this = some values ∧ Plain values ∧ object.content_ = body digest values

theorem GetSign_now {values : Values} {object : BaiDuPushMsgInfo} (now : signs object) :
    GetSign digest values object = Calculate digest values object := if_pos now

theorem GetSign_kept {values : Values} {object : BaiDuPushMsgInfo} (kept : ¬signs object) :
    GetSign digest values object = object := if_neg kept

theorem GetContent_now {values : Values} {object : BaiDuPushMsgInfo} (now : packs object) :
    GetContent digest values object = Package digest values object := if_pos now

theorem GetContent_kept {values : Values} {object : BaiDuPushMsgInfo} (kept : ¬packs object) :
    GetContent digest values object = object := if_neg kept

theorem data_bound {s : State} {data_ : Nat} {data : Data} (found : s.data data_ = some data) : data_ < s.memory.length := by
  by_contra outside
  rw [State.data,List.getElem?_eq_none (Nat.not_lt.mp outside)] at found
  cases found

theorem data_set {s : State} {data_ : Nat} (inside : data_ < s.memory.length) (x : Option Data)
    (objects : List BaiDuPushMsgInfo) (other : Nat) :
    State.data ⟨objects,s.memory.set data_ x⟩ other = if other = data_ then x else s.data other := by
  rw [State.data]
  split
  · rename_i same
    rw [same,List.getElem?_set_self inside,Option.join_some]
  · rename_i apart
    rw [List.getElem?_set_ne (Ne.symm apart),State.data]

/-- An object that takes another's place takes its place in the count. -/
theorem countP_replace (p : BaiDuPushMsgInfo → Bool) {objects : List BaiDuPushMsgInfo} {this : Nat} {object : BaiDuPushMsgInfo}
    (found : objects[this]? = some object) (next : BaiDuPushMsgInfo) :
    (objects.set this next).countP p + (if p object then 1 else 0) = objects.countP p + (if p next then 1 else 0) := by
  obtain ⟨inside,rfl⟩ := List.getElem?_eq_some_iff.mp found
  rw [List.countP_set inside]
  have least : (if p objects[this] = true then 1 else 0) ≤ objects.countP p := by
    split
    · rename_i holds
      exact List.countP_pos_iff.mpr ⟨_,List.getElem_mem inside,holds⟩
    · exact Nat.zero_le _
  omega

theorem holders_replace {s : State} {this : Nat} {object : BaiDuPushMsgInfo} (found : s.objects[this]? = some object)
    {next : BaiDuPushMsgInfo} (same : next.data_ = object.data_) (memory : List (Option Data)) (data_ : Nat) :
    State.holders ⟨s.objects.set this next,memory⟩ data_ = s.holders data_ := by
  have counts := countP_replace (fun object => decide (object.data_ = data_)) found next
  rw [same] at counts
  exact Nat.add_right_cancel counts

/-- Of an object that is put in another's place or was there before. -/
theorem getElem?_replace {objects : List BaiDuPushMsgInfo} {this other : Nat} {object next : BaiDuPushMsgInfo}
    (found : (objects.set this next)[other]? = some object) :
    (other = this ∧ object = next) ∨ (other ≠ this ∧ objects[other]? = some object) := by
  by_cases same : other = this
  · subst same
    have inside := (List.getElem?_eq_some_iff.mp found).1
    rw [List.length_set] at inside
    rw [List.getElem?_set_self inside] at found
    exact Or.inl ⟨rfl,(Option.some.inj found).symm⟩
  · rw [List.getElem?_set_ne (Ne.symm same)] at found
    exact Or.inr ⟨same,found⟩

namespace Inv
variable {s : State} {w : Watch} (inv : Inv digest s w)
include inv

theorem data_of {this : Nat} {object : BaiDuPushMsgInfo} (found : s.objects[this]? = some object) :
    ∃ data, s.data object.data_ = some data := inv.alive object (List.mem_of_getElem? found)

/-- What an object keeps stays as it is with its place. -/
theorem replace {this : Nat} {object next : BaiDuPushMsgInfo} (found : s.objects[this]? = some object)
    (same : next.data_ = object.data_) {memory : List (Option Data)}
    (datas : ∀ data_ data, State.data ⟨s.objects,memory⟩ data_ = some data → data.refcount_ + 1 = s.holders data_)
    (there : ∀ data_ data, s.data data_ = some data → ∃ data, State.data ⟨s.objects,memory⟩ data_ = some data) {watch : Watch}
    (others : ∀ other, other ≠ this → watch.signed other = w.signed other ∧ watch.packed other = w.packed other)
    (signed : next.hexdigest_ ≠ [] → ∃ values, watch.signed this = some values ∧ next.hexdigest_ = sign digest values)
    (packed : next.content_ ≠ [] → ∃ values, watch.packed this = some values ∧ Plain values ∧ next.content_ = body digest values) :
    Inv digest ⟨s.objects.set this next,memory⟩ watch where
  alive := by
    intro other member
    obtain ⟨place,found'⟩ := List.mem_iff_getElem?.mp member
    rcases getElem?_replace found' with ⟨-,rfl⟩ | ⟨-,found'⟩
    · obtain ⟨data,has⟩ := inv.data_of found
      rw [same]
      exact there _ data has
    · obtain ⟨data,has⟩ := inv.data_of found'
      exact there _ data has
  counted := by
    intro data_ data has
    rw [holders_replace found same]
    exact datas data_ data has
  signed := by
    intro other object' found' some_
    rcases getElem?_replace found' with ⟨rfl,rfl⟩ | ⟨apart,found'⟩
    · exact signed some_
    · rw [(others other apart).1]
      exact inv.signed other object' found' some_
  packed := by
    intro other object' found' some_
    rcases getElem?_replace found' with ⟨rfl,rfl⟩ | ⟨apart,found'⟩
    · exact packed some_
    · rw [(others other apart).2]
      exact inv.packed other object' found' some_

/-- A setter, of which the object keeps what it has made. -/
theorem set (this : Nat) (f : Values → Values) {g : BaiDuPushMsgInfo → BaiDuPushMsgInfo}
    (keeps : ∀ object, (g object).data_ = object.data_ ∧ (g object).hexdigest_ = object.hexdigest_ ∧
      (g object).content_ = object.content_) : ∃ next, s.set this f g = some next ∧ Inv digest next w := by
  rw [State.set]
  cases found : s.objects[this]? with
  | none => exact ⟨s,rfl,inv⟩
  | some object =>
    obtain ⟨data,has⟩ := inv.data_of found
    have inside := data_bound has
    dsimp only
    rw [State.change,has]
    refine ⟨_,rfl,?_⟩
    obtain ⟨same,hexdigest_,content_⟩ := keeps object
    refine inv.replace found same ?_ ?_ (fun _ _ => ⟨rfl,rfl⟩) ?_ ?_
    · intro data_ other there
      rw [data_set inside] at there
      split at there
      · rename_i here
        cases there
        rw [here]
        exact inv.counted _ data has
      · exact inv.counted data_ other there
    · intro data_ other there
      rw [data_set inside]
      split
      · exact ⟨_,rfl⟩
      · exact ⟨other,there⟩
    · rw [hexdigest_]
      exact inv.signed this object found
    · rw [content_]
      exact inv.packed this object found

theorem set_value (this : Nat) (key value : List UInt8) : ∃ next, set_value s this key value = some next ∧ Inv digest next w := by
  rw [Push.set_value]
  split
  · exact ⟨s,rfl,inv⟩
  · exact inv.set this _ fun _ => ⟨rfl,rfl,rfl⟩

theorem GetSign {this : Nat} {object : BaiDuPushMsgInfo} {data : Data} (found : s.objects[this]? = some object)
    (fits : Signed w this object data.toValues) : (GetSign digest data.toValues object).hexdigest_ = sign digest data.toValues := by
  rw [Signed] at fits
  by_cases now : signs object
  · rw [if_pos now] at fits
    have encoded_ := encoded_text fits
    rw [GetSign_now now,Calculate,encoded_]
    rfl
  · rw [if_neg now] at fits
    rw [GetSign_kept now]
    obtain ⟨values,watched,same⟩ := inv.signed this object found fun empty => now (Or.inl empty)
    rw [fits] at watched
    cases watched
    exact same

theorem GetContent {this : Nat} {object : BaiDuPushMsgInfo} {data : Data} (found : s.objects[this]? = some object)
    (fits : Packed w this object data.toValues) :
    (GetContent digest data.toValues object).content_ = body digest data.toValues ∧ Plain data.toValues := by
  rw [Packed] at fits
  by_cases now : packs object
  · rw [if_pos now] at fits
    rw [GetContent_now now,Package]
    dsimp only
    rw [inv.GetSign found fits.1]
    exact ⟨rfl,fits.2⟩
  · rw [if_neg now] at fits
    rw [GetContent_kept now]
    obtain ⟨values,watched,plain,same⟩ := inv.packed this object found fun empty => now (Or.inl empty)
    rw [fits] at watched
    cases watched
    exact ⟨same,plain⟩

/-- A new object has made nothing yet. -/
theorem append {new : BaiDuPushMsgInfo} (hexdigest_ : new.hexdigest_ = []) (content_ : new.content_ = []) {memory : List (Option Data)}
    (there : ∀ data_ data, s.data data_ = some data → ∃ data, State.data ⟨s.objects,memory⟩ data_ = some data)
    (new_data : ∃ data, State.data ⟨s.objects,memory⟩ new.data_ = some data)
    (counted : ∀ data_ data, State.data ⟨s.objects,memory⟩ data_ = some data →
      data.refcount_ + 1 = s.holders data_ + if new.data_ = data_ then 1 else 0) :
    Inv digest ⟨s.objects ++ [new],memory⟩ w where
  alive := by
    intro object member
    rcases List.mem_append.mp member with member | member
    · obtain ⟨data,has⟩ := inv.alive object member
      exact there _ data has
    · rw [List.mem_singleton.mp member]
      exact new_data
  counted := by
    intro data_ data has
    rw [counted data_ data has,State.holders,State.holders,List.countP_append,List.countP_singleton]
    simp only [decide_eq_true_eq]
    split
    · rfl
    · rfl
  signed := by
    intro this object found some_
    rw [List.getElem?_append] at found
    split at found
    · exact inv.signed this object found some_
    · have same := List.mem_singleton.mp (List.mem_of_getElem? found)
      rw [same,hexdigest_] at some_
      exact absurd rfl some_
  packed := by
    intro this object found some_
    rw [List.getElem?_append] at found
    split at found
    · exact inv.packed this object found some_
    · have same := List.mem_singleton.mp (List.mem_of_getElem? found)
      rw [same,content_] at some_
      exact absurd rfl some_

theorem create : Inv digest ⟨s.objects ++ [⟨s.memory.length,[],[],false,false⟩],s.memory ++ [some ⟨⟨[],[],[],∅⟩,0⟩]⟩ w := by
  have unheld : s.holders s.memory.length = 0 := by
    rw [State.holders,List.countP_eq_zero]
    intro object member same
    obtain ⟨data,has⟩ := inv.alive object member
    have inside := data_bound has
    rw [of_decide_eq_true same] at inside
    exact absurd inside (Nat.lt_irrefl _)
  have old {data_ : Nat} (inside : data_ < s.memory.length) :
      State.data ⟨s.objects,s.memory ++ [some ⟨⟨[],[],[],∅⟩,0⟩]⟩ data_ = s.data data_ := by
    rw [State.data,List.getElem?_append_left inside,State.data]
  have new : State.data ⟨s.objects,s.memory ++ [some ⟨⟨[],[],[],∅⟩,0⟩]⟩ s.memory.length = some ⟨⟨[],[],[],∅⟩,0⟩ := by
    rw [State.data,List.getElem?_concat_length,Option.join_some]
  refine inv.append rfl rfl (fun data_ data has => ⟨data,(old (data_bound has)).trans has⟩) ⟨_,new⟩ ?_
  intro data_ data has
  by_cases inside : data_ < s.memory.length
  · rw [old inside] at has
    rw [if_neg (Nat.ne_of_gt inside)]
    exact inv.counted data_ data has
  · have same : data_ = s.memory.length := by
      have bound := data_bound has
      rw [List.length_append,List.length_singleton] at bound
      omega
    rw [same,new] at has
    cases has
    rw [same,unheld,if_pos rfl]
    rfl

theorem copy {object : BaiDuPushMsgInfo} (member : object ∈ s.objects) : ∃ next, s.change object.data_ Data.AddRef = some next ∧
    Inv digest { next with objects := next.objects ++ [⟨object.data_,[],[],false,false⟩] } w := by
  obtain ⟨data,has⟩ := inv.alive object member
  have inside := data_bound has
  rw [State.change,has]
  refine ⟨_,rfl,inv.append rfl rfl ?_ ?_ ?_⟩
  · intro data_ other there
    rw [data_set inside]
    split
    · exact ⟨_,rfl⟩
    · exact ⟨other,there⟩
  · rw [data_set inside,if_pos rfl]
    exact ⟨_,rfl⟩
  · intro data_ other there
    rw [data_set inside] at there
    split at there
    · rename_i here
      cases there
      rw [here,if_pos rfl]
      have known := inv.counted _ data has
      dsimp only
      omega
    · rename_i apart
      rw [if_neg (Ne.symm apart)]
      exact inv.counted data_ other there

theorem assign {this push_msg_info : Nat} {object other : BaiDuPushMsgInfo} (found : s.objects[this]? = some object)
    (source : s.objects[push_msg_info]? = some other)
    (fits : s.holders object.data_ ≠ if object.data_ = other.data_ then 1 else 2) :
    ∃ next, ((s.change other.data_ Data.AddRef).bind fun s => s.change object.data_ Data.Release) = some next ∧
      Inv digest { next with objects := next.objects.set this { object with data_ := other.data_ } } w := by
  obtain ⟨data,has⟩ := inv.data_of found
  obtain ⟨data',has'⟩ := inv.data_of source
  have inside := data_bound has
  have inside' := data_bound has'
  have counts := inv.counted _ data has
  have counts' := inv.counted _ data' has'
  -- the data that is released, once the other has a reference more
  have first : s.change other.data_ Data.AddRef = some ⟨s.objects,s.memory.set other.data_ data'.AddRef⟩ := by
    rw [State.change,has']
    rfl
  have bound : object.data_ < (s.memory.set other.data_ data'.AddRef).length := by
    rw [List.length_set]
    exact inside
  obtain ⟨kept,read,values,more⟩ : ∃ kept, State.data ⟨s.objects,s.memory.set other.data_ data'.AddRef⟩ object.data_ = some kept ∧
      kept.toValues = data.toValues ∧ kept.refcount_ = data.refcount_ + if object.data_ = other.data_ then 1 else 0 := by
    rw [data_set inside']
    by_cases same : object.data_ = other.data_
    · rw [if_pos same]
      rw [← same,has] at has'
      cases has'
      exact ⟨_,rfl,rfl,by rw [if_pos same]⟩
    · rw [if_neg same]
      exact ⟨data,has,rfl,by rw [if_neg same,add_zero]⟩
  have held : kept.refcount_ - 1 ≠ 0 := by
    rw [more]
    split
    · rename_i same
      rw [if_pos same] at fits
      omega
    · rename_i apart
      rw [if_neg apart] at fits
      omega
  have second : State.change ⟨s.objects,s.memory.set other.data_ data'.AddRef⟩ object.data_ Data.Release =
      some ⟨s.objects,(s.memory.set other.data_ data'.AddRef).set object.data_ (some { kept with refcount_ := kept.refcount_ - 1 })⟩ := by
    rw [State.change,read,Option.map_some,Data.Release,if_neg held]
  refine ⟨_,by rw [first,Option.bind_some,second],?_⟩
  have reads (data_ : Nat) : State.data ⟨s.objects,(s.memory.set other.data_ data'.AddRef).set object.data_
      (some { kept with refcount_ := kept.refcount_ - 1 })⟩ data_ =
      if data_ = object.data_ then some { kept with refcount_ := kept.refcount_ - 1 }
      else if data_ = other.data_ then data'.AddRef else s.data data_ := by
    have outer := data_set (s := ⟨s.objects,s.memory.set other.data_ data'.AddRef⟩) bound
      (some { kept with refcount_ := kept.refcount_ - 1 }) s.objects data_
    rw [outer,data_set inside']
  have there (data_ : Nat) (old : Data) (was : s.data data_ = some old) : ∃ data, State.data ⟨s.objects,
      (s.memory.set other.data_ data'.AddRef).set object.data_ (some { kept with refcount_ := kept.refcount_ - 1 })⟩ data_ = some data := by
    rw [reads]
    split
    · exact ⟨_,rfl⟩
    · split
      · exact ⟨_,rfl⟩
      · exact ⟨old,was⟩
  refine ⟨?_,?_,?_,?_⟩
  · intro held member
    obtain ⟨place,at_⟩ := List.mem_iff_getElem?.mp member
    rcases getElem?_replace at_ with ⟨-,rfl⟩ | ⟨-,at_⟩
    · exact there _ data' has'
    · obtain ⟨data,was⟩ := inv.data_of at_
      exact there _ data was
  · intro data_ now read
    have counting := countP_replace (fun held => decide (held.data_ = data_)) found { object with data_ := other.data_ }
    simp only [decide_eq_true_eq] at counting
    change now.refcount_ + 1 = ((s.objects.set this { object with data_ := other.data_ }).countP fun held => decide (held.data_ = data_) : Nat)
    rw [State.holders] at counts counts'
    change State.data ⟨s.objects,_⟩ data_ = some now at read
    rw [reads] at read
    split at read
    · rename_i here
      cases read
      subst here
      rw [if_pos rfl] at counting
      dsimp only
      rw [more]
      split
      · rename_i same
        rw [if_pos same.symm] at counting
        omega
      · rename_i apart
        rw [if_neg (Ne.symm apart)] at counting
        omega
    · rename_i elsewhere
      rw [if_neg (Ne.symm elsewhere)] at counting
      split at read
      · rename_i here
        cases read
        subst here
        rw [if_pos rfl] at counting
        dsimp only
        omega
      · rename_i apart
        rw [if_neg (Ne.symm apart)] at counting
        have known := inv.counted data_ now read
        rw [State.holders] at known
        omega
  · intro place held at_ some_
    rcases getElem?_replace at_ with ⟨rfl,rfl⟩ | ⟨-,at_⟩
    · exact inv.signed place object found some_
    · exact inv.signed place held at_ some_
  · intro place held at_ some_
    rcases getElem?_replace at_ with ⟨rfl,rfl⟩ | ⟨-,at_⟩
    · exact inv.packed place object found some_
    · exact inv.packed place held at_ some_

end Inv

/-! ### The answers -/

theorem sign_signed {w : Watch} {this : Nat} {object : BaiDuPushMsgInfo} {values : Values} (fits : Signed w this object values) :
    (w.sign this object values).signed this = some values := by
  rw [Signed] at fits
  rw [Watch.sign]
  split
  · exact Function.update_self ..
  · rename_i kept
    rw [if_neg kept] at fits
    exact fits

theorem sign_others (w : Watch) {this other : Nat} (apart : other ≠ this) (object : BaiDuPushMsgInfo) (values : Values) :
    (w.sign this object values).signed other = w.signed other ∧ (w.sign this object values).packed other = w.packed other := by
  rw [Watch.sign]
  split
  · exact ⟨Function.update_of_ne apart ..,rfl⟩
  · exact ⟨rfl,rfl⟩

theorem pack_others (w : Watch) {this other : Nat} (apart : other ≠ this) (object : BaiDuPushMsgInfo) (values : Values) :
    (w.pack this object values).signed other = w.signed other ∧ (w.pack this object values).packed other = w.packed other := by
  rw [Watch.pack]
  split
  · exact ⟨(sign_others w apart object values).1,Function.update_of_ne apart ..⟩
  · exact ⟨rfl,rfl⟩

theorem GetSign_data (values : Values) (object : BaiDuPushMsgInfo) :
    (GetSign digest values object).data_ = object.data_ ∧ (GetSign digest values object).content_ = object.content_ := by
  by_cases now : signs object
  · rw [GetSign_now now]
    exact ⟨rfl,rfl⟩
  · rw [GetSign_kept now]
    exact ⟨rfl,rfl⟩

theorem GetContent_data (values : Values) (object : BaiDuPushMsgInfo) : (GetContent digest values object).data_ = object.data_ := by
  by_cases now : packs object
  · rw [GetContent_now now]
    exact (GetSign_data values object).1
  · rw [GetContent_kept now]

theorem State.call_eq {s : State} {this : Nat} {object : BaiDuPushMsgInfo} {data : Data} (found : s.objects[this]? = some object)
    (has : s.data object.data_ = some data) (f : Values → BaiDuPushMsgInfo → BaiDuPushMsgInfo)
    (answer : BaiDuPushMsgInfo → List UInt8) : s.call this f answer =
      some ({ s with objects := s.objects.set this (f data.toValues object) },answer (f data.toValues object)) := by
  rw [State.call,found]
  dsimp only
  rw [has,Option.map_some]

namespace Inv
variable {s : State} {w : Watch} (inv : Inv digest s w)
include inv

theorem step_sign {this : Nat} {object : BaiDuPushMsgInfo} {data : Data} (found : s.objects[this]? = some object)
    (fits : Signed w this object data.toValues) :
    Inv digest { s with objects := s.objects.set this (Push.GetSign digest data.toValues object) } (w.sign this object data.toValues) := by
  have kept : (Push.GetSign digest data.toValues object).data_ = object.data_ ∧
      (Push.GetSign digest data.toValues object).content_ = object.content_ := GetSign_data _ _
  obtain ⟨same,content_⟩ := kept
  refine inv.replace found same inv.counted (fun _ data has => ⟨data,has⟩) (fun _ apart => sign_others w apart object _) ?_ ?_
  · intro _
    exact ⟨_,sign_signed fits,inv.GetSign found fits⟩
  · intro some_
    rw [content_] at some_ ⊢
    have kept : (w.sign this object data.toValues).packed = w.packed := by
      rw [Watch.sign]
      split
      · rfl
      · rfl
    rw [kept]
    exact inv.packed this object found some_

theorem step_content {this : Nat} {object : BaiDuPushMsgInfo} {data : Data} (found : s.objects[this]? = some object)
    (fits : Packed w this object data.toValues) :
    Inv digest { s with objects := s.objects.set this (Push.GetContent digest data.toValues object) }
      (w.pack this object data.toValues) := by
  obtain ⟨made,plain⟩ := inv.GetContent found fits
  refine inv.replace found (GetContent_data _ _) inv.counted (fun _ data has => ⟨data,has⟩)
    (fun _ apart => pack_others w apart object _) ?_ ?_
  · intro some_
    rw [Packed] at fits
    rw [Watch.pack]
    by_cases now : packs object
    · rw [if_pos now] at fits
      rw [if_pos now,GetContent_now now]
      exact ⟨_,sign_signed fits.1,inv.GetSign found fits.1⟩
    · rw [GetContent_kept now] at some_
      rw [if_neg now,GetContent_kept now]
      exact inv.signed this object found some_
  · intro _
    refine ⟨data.toValues,?_,plain,made⟩
    rw [Packed] at fits
    rw [Watch.pack]
    by_cases now : packs object
    · rw [if_pos now]
      exact Function.update_self ..
    · rw [if_neg now] at fits
      rw [if_neg now]
      exact fits

/-- One operation that fits. -/
theorem step {op : Op} (fits : Fits s w op) : ∃ next answer, step digest s op = some (next,answer) ∧ Answers digest s answer op ∧
    Inv digest next (watch s w op) := by
  cases op with
  | create => exact ⟨_,_,rfl,trivial,inv.create⟩
  | copy push_msg_info =>
    rw [Push.step]
    cases found : s.objects[push_msg_info]? with
    | none => exact ⟨s,[],rfl,trivial,inv⟩
    | some object =>
      obtain ⟨next,changed,after⟩ := inv.copy (List.mem_of_getElem? found)
      dsimp only
      rw [changed]
      exact ⟨_,_,rfl,trivial,after⟩
  | assign this push_msg_info =>
    rw [Push.step]
    cases found : s.objects[this]? with
    | none => exact ⟨s,[],rfl,trivial,inv⟩
    | some object =>
      cases source : s.objects[push_msg_info]? with
      | none => exact ⟨s,[],rfl,trivial,inv⟩
      | some other =>
        obtain ⟨next,changed,after⟩ := inv.assign found source (fits object other found source)
        dsimp only
        rw [changed]
        exact ⟨_,_,rfl,trivial,after⟩
  | set_value this key value =>
    obtain ⟨next,changed,after⟩ := inv.set_value this key value
    rw [Push.step,changed]
    exact ⟨_,_,rfl,trivial,after⟩
  | set_number this key value =>
    rw [Push.step]
    split
    · exact ⟨s,[],rfl,trivial,inv⟩
    · obtain ⟨next,changed,after⟩ := inv.set_value this key (decimal value.toInt)
      rw [changed]
      exact ⟨_,_,rfl,trivial,after⟩
  | set_method this method =>
    obtain ⟨next,changed,after⟩ := inv.set (g := id) this (fun values => { values with method_ := method }) fun _ => ⟨rfl,rfl,rfl⟩
    rw [Push.step,changed]
    exact ⟨_,_,rfl,trivial,after⟩
  | set_url this url =>
    obtain ⟨next,changed,after⟩ := inv.set (g := id) this (fun values => { values with url_ := url }) fun _ => ⟨rfl,rfl,rfl⟩
    rw [Push.step,changed]
    exact ⟨_,_,rfl,trivial,after⟩
  | set_secret this secret =>
    obtain ⟨next,changed,after⟩ := inv.set (g := id) this (fun values => { values with secret_ := secret }) fun _ => ⟨rfl,rfl,rfl⟩
    rw [Push.step,changed]
    exact ⟨_,_,rfl,trivial,after⟩
  | GetSign this =>
    cases found : s.objects[this]? with
    | none =>
      refine ⟨s,[],?_,?_,?_⟩
      · rw [Push.step,State.call,found]
      · intro object data there
        rw [found] at there
        cases there
      · rw [watch,found]
        exact inv
    | some object =>
      obtain ⟨data,has⟩ := inv.data_of found
      have good := fits object data found has
      refine ⟨_,_,State.call_eq found has _ _,?_,?_⟩
      · intro other values there held
        rw [found] at there
        cases there
        rw [has] at held
        cases held
        exact inv.GetSign found good
      · rw [watch,found]
        dsimp only
        rw [has]
        exact inv.step_sign found good
  | GetContent this =>
    cases found : s.objects[this]? with
    | none =>
      refine ⟨s,[],?_,?_,?_⟩
      · rw [Push.step,State.call,found]
      · intro object data there
        rw [found] at there
        cases there
      · rw [watch,found]
        exact inv
    | some object =>
      obtain ⟨data,has⟩ := inv.data_of found
      have good := fits object data found has
      refine ⟨_,_,State.call_eq found has _ _,?_,?_⟩
      · intro other values there held
        rw [found] at there
        cases there
        rw [has] at held
        cases held
        obtain ⟨made,plain⟩ := inv.GetContent found good
        exact ⟨_,by rw [made]; exact body_pairs digest plain,List.Perm.refl _⟩
      · rw [watch,found]
        dsimp only
        rw [has]
        exact inv.step_content found good

end Inv

theorem Inv.start : Inv digest start ⟨fun _ => none,fun _ => none⟩ where
  alive _ member := absurd member List.not_mem_nil
  counted _ _ has := absurd (data_bound has) (Nat.not_lt_zero _)
  signed _ _ found := absurd (List.mem_of_getElem? found) List.not_mem_nil
  packed _ _ found := absurd (List.mem_of_getElem? found) List.not_mem_nil

theorem run_concat (before : List Op) (op : Op) :
    run digest (before ++ [op]) = (run digest before).bind fun s => (step digest s op).map Prod.fst := by
  simp [run]

theorem watched_concat (before : List Op) (op : Op) : watched digest (before ++ [op]) =
    (watched digest before).bind fun (s,w) => (step digest s op).map fun next => (next.1,watch s w op) := by
  simp [watched]

/-- Up to each operation the run that is watched goes through. -/
theorem Good.reaches {ops : List Op} (good : Good digest ops) (before : List Op) (rest : List Op) (whole : ops = before ++ rest) :
    ∃ s w, watched digest before = some (s,w) ∧ run digest before = some s ∧ Inv digest s w := by
  induction before using List.reverseRecOn generalizing rest with
  | nil => exact ⟨start,_,rfl,rfl,Inv.start⟩
  | append_singleton before op ih =>
    rw [List.append_assoc,List.singleton_append] at whole
    obtain ⟨s,w,seen,ran,inv⟩ := ih (op::rest) whole
    obtain ⟨next,answer,stepped,-,after⟩ := inv.step (good before op rest s w whole seen)
    refine ⟨next,_,?_,?_,after⟩
    · rw [watched_concat,seen,Option.bind_some]
      dsimp only
      rw [stepped]
      rfl
    · rw [run_concat,ran,Option.bind_some,stepped]
      rfl

end Runs

theorem Good.signed_current {digest : List UInt8 → Fin 16 → UInt8} {ops : List Op} (good : Good digest ops) : Right digest ops := by
  intro before op after whole
  obtain ⟨s,w,seen,ran,inv⟩ := good.reaches before (op::after) whole
  obtain ⟨next,answer,stepped,answers,-⟩ := inv.step (good before op after s w whole seen)
  exact ⟨s,next,answer,ran,stepped,answers⟩

/-- The digest of `POST`. -/
def posted : List UInt8 → Fin 16 → UInt8 :=
  fun _ i => [160,36,57,236,34,157,139,224,231,75,12,22,2,57,35,16].get i

/-- A method that is set and signed. -/
theorem post_signed : Right posted [.create,.set_method 0 (ascii "POST"),.GetSign 0] := by
  refine Good.signed_current fun before op after s w whole seen => ?_
  cases before with
  | nil =>
    cases whole
    exact trivial
  | cons first before =>
    cases before with
    | nil =>
      cases whole
      exact trivial
    | cons second before =>
      cases before with
      | nil =>
        cases whole
        have made : watched posted [.create,.set_method 0 (ascii "POST")] =
            some (⟨[⟨0,[],[],false,false⟩],[some ⟨⟨ascii "POST",[],[],∅⟩,0⟩]⟩,⟨fun _ => none,fun _ => none⟩) := rfl
        rw [made] at seen
        cases seen
        intro object data found has
        cases found
        cases has
        have now : signs ⟨0,[],[],false,false⟩ := Or.inl rfl
        rw [Signed,if_pos now]
        exact Or.inr ⟨by decide,80,by decide,by decide⟩
      | cons third before =>
        have rest := (List.cons.inj (List.cons.inj (List.cons.inj whole).2).2).2
        exact absurd rest.symm (List.append_ne_nil_of_right_ne_nil _ (List.cons_ne_nil _ _))

/-- The digest of `k%3Da%26b`. -/
def ampersand : List UInt8 → Fin 16 → UInt8 :=
  fun _ i => [200,66,6,50,56,33,31,29,8,101,108,151,241,34,54,238].get i

/-- A value with `&` is taken apart. -/
theorem value_apart : ¬Right ampersand [.create,.set_value 0 (ascii "k") (ascii "a&b"),.GetContent 0] := by
  intro right
  obtain ⟨s,next,answer,ran,stepped,answers⟩ := right [.create,.set_value 0 (ascii "k") (ascii "a&b")] (.GetContent 0) [] rfl
  have made : run ampersand [.create,.set_value 0 (ascii "k") (ascii "a&b")] =
      some ⟨[⟨0,[],[],true,true⟩],[some ⟨⟨[],[],[],(∅ : ParamMap).insert (ascii "k") (ascii "a&b")⟩,0⟩]⟩ := rfl
  rw [made] at ran
  cases ran
  cases stepped
  obtain ⟨found,read,-⟩ := answers _ _ rfl rfl
  cases read

end Migfm.Push
