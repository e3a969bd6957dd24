import Mathlib.Tactic
import Migfm.Storage.RedisWarrper

/-! `GetAllHash` of public/storage/redis_storage_impl.cc, over the reply that
`RedisGetAllHash` takes apart. Redis answers. -/
namespace Migfm.Storage.HashReplies

/-- The replies of hiredis. -/
inductive redisReply
  | string (str : List UInt8)
  | array (element : List redisReply)
  | integer (integer : Int64)
  | nil
  | status (str : List UInt8)
  | error (str : List UInt8)

/-- `str` is `NULL` where the reply has no text. -/
def redisReply.str : redisReply → Option (List UInt8)
  | .string str => some str
  | .status str => some str
  | .error str => some str
  | _ => none

abbrev Map := List UInt8 → Option (List UInt8)

def INT_MAX : Nat := 2 ^ 31 - 1

/-- What is given back, and what is written through `val` and `val_len`: for a reply
that is not an array, nothing is. -/
structure Taken where
  wa_re : Option redisReply
  val : List (Option (List UInt8))
  val_len : Option Nat

/-- Undefined if `j` overflows. -/
def RedisGetAllHash : redisReply → Option Taken
  | .array element => if element.length ≤ INT_MAX then some ⟨some (.array element),element.map redisReply.str,some element.length⟩ else none
  | _ => some ⟨none,[],none⟩

/-- One round of the loop; `none` is a read outside `pptr`. -/
def assign (pptr : List (Option (List UInt8))) (map : Map) (r : Nat) : Option Map :=
  pptr[r]?.bind fun key =>
    match key with
    | none => some map
    | some key => pptr[r + 1]?.map fun value =>
      match value with
      | none => map
      | some value => Function.update map (c_str key) (some (c_str value))

/-- `n` has to have been written. -/
def GetAllHash (PingRedis : Bool) (reply : redisReply) (map : Map) : Option (Bool × Map) :=
  if PingRedis then
    (RedisGetAllHash reply).bind fun taken =>
      taken.val_len.bind fun n =>
        ((List.range (n / 2)).foldlM (assign taken.val) map).map fun map => (taken.wa_re.isSome,map)
  else some (false,map)

/-! ### Replies to HGETALL -/

/-- Each field in front of its value. -/
def texts (fields : List (List UInt8 × List UInt8)) : List (List UInt8) := fields.flatMap fun field => [field.1,field.2]

def hash (fields : List (List UInt8 × List UInt8)) : redisReply := .array ((texts fields).map .string)

/-- The first so many texts, each with the one behind it. -/
def neighbours (texts : List (List UInt8)) (n : Nat) : List (List UInt8 × List UInt8) :=
  (List.range n).map fun r => (texts.getD r [],texts.getD (r + 1) [])

/-- The pairs that overlap are those of the reply, and nothing in them ends early. -/
def Overlapping (fields : List (List UInt8 × List UInt8)) : Prop :=
  2 * fields.length ≤ INT_MAX ∧ (∀ text ∈ texts fields, ∀ c ∈ text, c ≠ 0) ∧
    (neighbours (texts fields) fields.length).Perm fields

instance (fields : List (List UInt8 × List UInt8)) : Decidable (Overlapping fields) :=
  inferInstanceAs (Decidable (_ ∧ _ ∧ _))

section Fields
variable {fields : List (List UInt8 × List UInt8)}

theorem length_texts : (texts fields).length = 2 * fields.length := by
  induction fields with
  | nil => rfl
  | cons field fields ih =>
    rw [texts] at ih
    rw [texts,List.flatMap_cons,List.length_append,ih]
    simp only [List.length_cons,List.length_nil]
    omega

theorem overlapping_one (field value : List UInt8) (plain : ∀ c ∈ field ++ value, c ≠ 0) : Overlapping [(field,value)] := by
  refine ⟨(by decide : 2 ≤ INT_MAX),?_,.refl _⟩
  rintro text member c inside
  obtain rfl | member := List.mem_cons.mp member
  · exact plain c (List.mem_append_left _ inside)
  · rw [List.mem_singleton.mp member] at inside
    exact plain c (List.mem_append_right _ inside)

/-- With two fields or more, the first value has to be a field. -/
theorem Overlapping.first_value {field value : List UInt8} (overlapping : Overlapping ((field,value)::fields)) (more : fields ≠ []) :
    value ∈ ((field,value)::fields).map Prod.fst := by
  obtain ⟨count,length⟩ : ∃ count, fields.length = count + 1 := Nat.exists_eq_succ_of_ne_zero fun none_ => more (List.length_eq_zero_iff.mp none_)
  have second : (value,(texts ((field,value)::fields)).getD 2 []) ∈ neighbours (texts ((field,value)::fields)) (fields.length + 1) :=
    List.mem_map.mpr ⟨1,List.mem_range.mpr (by omega),rfl⟩
  exact List.mem_map_of_mem (f := Prod.fst) (overlapping.2.2.subset second)

/-! ### The loop -/

def put (map : Map) (field : List UInt8 × List UInt8) : Map := Function.update map field.1 (some field.2)

theorem foldlM_assign {texts : List (List UInt8)} (map : Map) {n : Nat} (inside : n < texts.length ∨ n = 0) :
    (List.range n).foldlM (assign (texts.map some)) map = some ((neighbours (texts.map c_str) n).foldl put map) := by
  induction n with
  | zero => rfl
  | succ n ih =>
    have within : n + 1 < texts.length := inside.resolve_right (Nat.succ_ne_zero n)
    have one : n < texts.length := Nat.lt_of_succ_lt within
    rw [neighbours,List.range_succ,List.foldlM_append,ih (.inl one),List.map_append,List.foldl_append]
    simp [assign,put,neighbours,one,within,List.getD_eq_getElem?_getD]

theorem foldl_put (assigned : List (List UInt8 × List UInt8)) (map : Map) (key : List UInt8) :
    assigned.foldl put map key = (assigned.reverse.lookup key).or (map key) := by
  induction assigned generalizing map with
  | nil => rfl
  | cons field assigned ih =>
    rw [List.foldl_cons,ih,put,List.reverse_cons,List.lookup_append,Option.or_assoc]
    congr 1
    by_cases same : key = field.1
    · subst same
      rw [Function.update_self,List.lookup_cons,beq_self_eq_true]
      rfl
    · rw [Function.update_of_ne same,List.lookup_cons,beq_eq_false_iff_ne.mpr same]
      rfl

/-- A hash has one value for a field. -/
theorem lookup_iff (distinct : (fields.map Prod.fst).Nodup) {key value : List UInt8} :
    fields.lookup key = some value ↔ (key,value) ∈ fields := by
  rw [List.lookup_eq_some_iff]
  constructor
  · rintro ⟨before,behind,rfl,-⟩
    exact List.mem_append_right _ List.mem_cons_self
  · intro member
    obtain ⟨before,behind,rfl⟩ := List.append_of_mem member
    refine ⟨before,behind,rfl,fun field listed => ?_⟩
    rw [List.map_append,List.map_cons] at distinct
    rw [bne_iff_ne]
    exact fun same => List.disjoint_of_nodup_append distinct (List.mem_map_of_mem listed) (same ▸ List.mem_cons_self)

theorem lookup_perm {first second : List (List UInt8 × List UInt8)} (distinct : (first.map Prod.fst).Nodup) (same : first.Perm second)
    (key : List UInt8) : first.lookup key = second.lookup key := by
  have distinct' : (second.map Prod.fst).Nodup := (same.map Prod.fst).nodup_iff.mp distinct
  ext value
  rw [lookup_iff distinct,lookup_iff distinct']
  exact same.mem_iff

theorem GetAllHash_hash (map : Map) : GetAllHash true (hash fields) map =
    if 2 * fields.length ≤ INT_MAX then some (true,(neighbours ((texts fields).map c_str) fields.length).foldl put map) else none := by
  have elements : ((texts fields).map redisReply.string).length = 2 * fields.length := by rw [List.length_map,length_texts]
  have half : 2 * fields.length / 2 = fields.length := Nat.mul_div_cancel_left _ (by decide)
  have inside : fields.length < (texts fields).length ∨ fields.length = 0 := by
    rw [length_texts]
    omega
  have strs : ((texts fields).map redisReply.string).map redisReply.str = (texts fields).map some := by
    rw [List.map_map]
    rfl
  rw [GetAllHash,if_pos rfl,hash,RedisGetAllHash,elements]
  split
  · rw [Option.bind_some,Option.bind_some,half,strs,foldlM_assign map inside]
    rfl
  · rfl

theorem texts_plain (plain : ∀ text ∈ texts fields, ∀ c ∈ text, c ≠ 0) : (texts fields).map c_str = texts fields := by
  conv_rhs => rw [← List.map_id (texts fields)]
  exact List.map_congr_left fun text member => c_str_eq (plain text member)

theorem neighbours_length {texts : List (List UInt8)} {n : Nat} : (neighbours texts n).length = n := by
  rw [neighbours,List.length_map,List.length_range]

theorem neighbours_plain {texts : List (List UInt8)} {n : Nat} {field : List UInt8 × List UInt8}
    (listed : field ∈ neighbours (texts.map c_str) n) : (∀ c ∈ field.1, c ≠ 0) ∧ ∀ c ∈ field.2, c ≠ 0 := by
  have each (i : Nat) : ∀ c ∈ (texts.map c_str).getD i [], c ≠ 0 := by
    rw [List.getD_eq_getElem?_getD,List.getElem?_map]
    cases texts[i]? with
    | none => exact fun c none_ => absurd none_ List.not_mem_nil
    | some text => exact c_str_clean text
  obtain ⟨r,-,rfl⟩ := List.mem_map.mp listed
  exact ⟨each r,each (r + 1)⟩

/-- What is asked: a hash is read into an empty map as it is, and another reply changes nothing. -/
theorem GetAllHash_iff (fields : List (List UInt8 × List UInt8)) (distinct : (fields.map Prod.fst).Nodup) (reply : redisReply) (map : Map) :
    (GetAllHash true (hash fields) (fun _ => none) = some (true,fun key => fields.lookup key) ↔ Overlapping fields) ∧
    ((∀ element, reply ≠ .array element) → GetAllHash true reply map ≠ some (false,map)) := by
  constructor
  · rw [GetAllHash_hash]
    constructor
    · intro same
      split at same
      · rename_i small
        have map : ∀ key, ((neighbours ((texts fields).map c_str) fields.length).foldl put fun _ => none) key = fields.lookup key :=
          congrFun (Prod.mk.inj (Option.some.inj same)).2
        have subset : fields ⊆ neighbours ((texts fields).map c_str) fields.length := by
          intro field listed
          have found := (map field.1).trans ((lookup_iff distinct).mpr listed)
          rw [foldl_put,Option.or_none,List.lookup_eq_some_iff] at found
          obtain ⟨before,behind,split_,-⟩ := found
          exact List.mem_reverse.mp (split_ ▸ List.mem_append_right _ List.mem_cons_self)
        have overlap : fields.Perm (neighbours ((texts fields).map c_str) fields.length) :=
          (List.subperm_of_subset distinct.of_map subset).perm_of_length_le (neighbours_length ▸ le_rfl)
        have plain : ∀ text ∈ texts fields, ∀ c ∈ text, c ≠ 0 := by
          intro text member
          obtain ⟨field,listed,inside⟩ := List.mem_flatMap.mp member
          obtain ⟨first,second⟩ := neighbours_plain (overlap.subset listed)
          obtain rfl | rest := List.mem_cons.mp inside
          · exact first
          · rw [List.mem_singleton.mp rest]
            exact second
        rw [texts_plain plain] at overlap
        exact ⟨small,plain,overlap.symm⟩
      · cases same
    · rintro ⟨small,plain,overlap⟩
      have distinct' := (overlap.map Prod.fst).nodup_iff.mpr distinct
      rw [if_pos small,texts_plain plain]
      congr 2
      ext key : 1
      rw [foldl_put,Option.or_none]
      exact (lookup_perm distinct ((List.reverse_perm _).trans overlap).symm key).symm
  · intro other
    cases reply with
    | array element => exact absurd rfl (other element)
    | _ => exact fun answered => by cases answered

end Fields

theorem GetAllHash_one : GetAllHash true (hash [([97],[98])]) (fun _ => none) = some (true,fun key => [([97],[98])].lookup key) :=
  (GetAllHash_iff [([97],[98])] (List.nodup_singleton _) .nil (fun _ => none)).1.mpr (overlapping_one [97] [98] (List.forall_mem_cons.mpr ⟨by decide,List.forall_mem_singleton.mpr (by decide)⟩))

/-- Two fields: the second is not in the map. -/
theorem second_missing : GetAllHash true (hash [([97],[49]),([98],[50])]) (fun _ => none) ≠
    some (true,fun key => [([97],[49]),([98],[50])].lookup key) := by
  intro same
  have second := congrFun (Prod.mk.inj (Option.some.inj same)).2 [98]
  cases second

end Migfm.Storage.HashReplies
