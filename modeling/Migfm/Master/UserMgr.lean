import Migfm.Logic.ValueSerializer
import Migfm.Storage.RedisWarrper

/-! The filter of master/robot/user_mgr.cc for users whose names are mail addresses. -/
namespace Migfm.Master.UserMgr
open Storage (c_str)

def at_ : UInt8 := 64
def dot : UInt8 := 46
def hyphen : UInt8 := 45

/-! ### Nodes -/

/-- The mapped character, and whether it is valid. -/
def PrepNodeAscii (ch : UInt8) : UInt8 × Bool :=
  if 65 ≤ ch ∧ ch ≤ 90 then (ch + 32,true)
  else if ch ≤ 0x17 ∨ ch ∈ [32,38,47,58,60,62,64,34,39] ∨ ch = 0x7F then (0,false)
  else (ch,true)

section Node
-- of the locale, for bytes that are not ASCII
variable (tolower : UInt8 → UInt8)

def PrepNodeLoop (result : List UInt8) : List UInt8 → Option (List UInt8)
  | [] => some result
  | ch::rest =>
    if ch ≤ 0x7F then
      if (PrepNodeAscii ch).2 then PrepNodeLoop (result ++ [(PrepNodeAscii ch).1]) rest else none
    else PrepNodeLoop (result ++ [tolower ch]) rest

def PrepNode (str : List UInt8) : List UInt8 × Bool :=
  match PrepNodeLoop tolower [] str with
  | none => ([],false)
  | some result => if 1023 < result.length then ([],false) else (result,true)

end Node

/-! ### Domains -/

def PrepDomainLabelAscii (ch : UInt8) : UInt8 × Bool :=
  if 65 ≤ ch ∧ ch ≤ 90 then (ch + 32,true)
  else if ch ≤ 0x2C ∨ ch = 0x2E ∨ ch = 0x2F ∨ (0x3A ≤ ch ∧ ch ≤ 0x40) ∨ (0x5B ≤ ch ∧ ch ≤ 0x60) ∨ (0x7B ≤ ch ∧ ch ≤ 0x7F) then (0,false)
  else (ch,true)

/-- The loop of `PrepDomainLabel`, with whether it got to its end. -/
def PrepDomainLabelLoop (buf : List UInt8) : List UInt8 → List UInt8 × Bool
  | [] => (buf,true)
  | ch::rest =>
    if ch ≤ 0x7F then
      if (PrepDomainLabelAscii ch).2 then PrepDomainLabelLoop (buf ++ [(PrepDomainLabelAscii ch).1]) rest
      else (buf ++ [(PrepDomainLabelAscii ch).1],false)
    else PrepDomainLabelLoop (buf ++ [ch]) rest

/-- `(*buf)[index]` for an `int`; it is undefined outside. -/
def at? (buf : List UInt8) (index : Int32) : Option UInt8 := if index < 0 then none else buf[index.toInt.toNat]?

/-- What stands in the buffer afterwards, and whether the label is valid. -/
def PrepDomainLabel (label buf : List UInt8) : Option (List UInt8 × Bool) :=
  let startLen := Int32.ofNat buf.length
  match PrepDomainLabelLoop buf label with
  | (buf,false) => some (buf,false)
  | (buf,true) => do
    let count := Int32.ofInt (buf.length - startLen.toInt)
    if count = 0 then some (buf,false)
    else if 63 < count then some (buf,false)
    else if (← at? buf startLen) = hyphen then some (buf,false)
    else if (← buf[buf.length - 1]?) = hyphen then some (buf,false)
    else some (buf,true)

/-- The loop over the domain; `label` is what lies between `last` and `i`. -/
def PrepDomainLoop (label buf : List UInt8) : List UInt8 → Option (List UInt8 × Bool)
  | [] => PrepDomainLabel label buf
  | ch::rest =>
    if ch = dot then do
      let (buf,label_valid) ← PrepDomainLabel label buf
      if label_valid then PrepDomainLoop [] (buf ++ [dot]) rest else some (buf ++ [dot],false)
    else PrepDomainLoop (label ++ [ch]) buf rest

def PrepDomain (str : List UInt8) : Option (List UInt8 × Bool) := do
  let (result,valid) ← PrepDomainLoop [] [] str
  if !valid then some ([],false) else if 1023 < result.length then some ([],false) else some (result,true)

/-! ### Users -/

section Users
variable (tolower : UInt8 → UInt8)

/-- `none` where the program reads outside of a string. -/
def CheckUserInfo (username : List UInt8) : Option Bool :=
  if username = [] then some false
  else
    let (node_name,domain_begin) := match username.findIdx? (· = at_) with
      | some found => (username.take found,found + 1)
      | none => ([],0)
    let domain_name := username.drop domain_begin
    if domain_name = [] ∨ node_name = [] then some false
    else do
      let valid_node := (PrepNode tolower node_name).2
      let (_,valid_domain) ← PrepDomain domain_name
      some (valid_node && valid_domain)

/-- The constructor leaves `uid` as it is in memory. -/
structure MailUserInfo where
  uid : Int64
  username : List UInt8
  nickname : List UInt8

structure Info where
  id : Int64
  name : List UInt8
  nickname : List UInt8

def GetUserInfoMail : List MailUserInfo → List Info → Option (List Info)
  | [],value => some value
  | mailinfo::list,value => do
    if ← CheckUserInfo tolower mailinfo.username then
      GetUserInfoMail list (value ++ [⟨mailinfo.uid,c_str mailinfo.username,c_str mailinfo.nickname⟩])
    else GetUserInfoMail list value

end Users

/-! ### The grammar -/

def LabelByte (c : UInt8) : Prop := (65 ≤ c ∧ c ≤ 90) ∨ (97 ≤ c ∧ c ≤ 122) ∨ (48 ≤ c ∧ c ≤ 57) ∨ c = hyphen ∨ 0x80 ≤ c

structure Label (label : List UInt8) : Prop where
  some_ : label ≠ []
  length : label.length ≤ 63
  bytes : ∀ c ∈ label, LabelByte c
  first : label.head? ≠ some hyphen
  last : label.getLast? ≠ some hyphen

structure Node (node : List UInt8) : Prop where
  some_ : node ≠ []
  length : node.length ≤ 1023
  bytes : ∀ c ∈ node, c ≤ 0x7F → (PrepNodeAscii c).2 = true

structure Domain (domain : List UInt8) : Prop where
  length : domain.length ≤ 1023
  labels : ∃ labels, labels ≠ [] ∧ domain = [dot].intercalate labels ∧ ∀ label ∈ labels, Label label

/-- The name is split at its first `@`. -/
def Address (username : List UInt8) : Prop :=
  ∃ node domain, username = node ++ at_::domain ∧ at_ ∉ node ∧ Node node ∧ Domain domain

/-! ### Where the buffer is read -/

/-- The length of the label as an `int` passes its two tests. -/
def Counted (label : List UInt8) : Prop := Int32.ofNat label.length ≠ 0 ∧ ¬63 < Int32.ofNat label.length

/-- Each label that is reached and read starts at an index that is not negative as an
`int`. -/
def Starts (before : List UInt8) : List (List UInt8) → Prop
  | [] => True
  | label::labels => (∀ c ∈ label, LabelByte c) → Counted label →
      ¬Int32.ofNat before.length < 0 ∧
        (at? (before ++ label) (Int32.ofNat before.length) ≠ some hyphen → label.getLast? ≠ some hyphen →
          Starts (before ++ label ++ [dot]) labels)

/-- So it is for the domain of the name, if it is looked at. -/
def Indexed (username : List UInt8) : Prop :=
  ∀ node domain, username = node ++ at_::domain → at_ ∉ node → node ≠ [] → domain ≠ [] → Starts [] (domain.splitOn dot)

/-! ### Labels -/

/-- What is put into the buffer for a byte. -/
def mapped (c : UInt8) : UInt8 := if c ≤ 0x7F then (PrepDomainLabelAscii c).1 else c

theorem LabelByte_iff (c : UInt8) : LabelByte c ↔ (c ≤ 0x7F → (PrepDomainLabelAscii c).2 = true) := by
  rw [LabelByte,PrepDomainLabelAscii,hyphen]
  split_ifs with letter invalid
  · exact iff_of_true (.inl letter) fun _ => rfl
  · refine iff_of_false ?_ fun valid => valid ?_
    · simp only [UInt8.le_iff_toNat_le,← UInt8.toNat_inj,UInt8.toNat_ofNat,Nat.reducePow,Nat.reduceMod] at *
      omega
    · simp only [UInt8.le_iff_toNat_le,← UInt8.toNat_inj,UInt8.toNat_ofNat,Nat.reducePow,Nat.reduceMod] at *
      omega
  · refine iff_of_true ?_ fun _ => rfl
    simp only [UInt8.le_iff_toNat_le,← UInt8.toNat_inj,UInt8.toNat_ofNat,Nat.reducePow,Nat.reduceMod] at *
    omega

theorem mapped_hyphen {c : UInt8} (byte : LabelByte c) : mapped c = hyphen ↔ c = hyphen := by
  rw [LabelByte_iff] at byte
  rw [mapped]
  split
  · rename_i low
    have valid := byte low
    rw [PrepDomainLabelAscii] at valid ⊢
    split_ifs at valid ⊢
    · rw [hyphen]
      simp only [← UInt8.toNat_inj,UInt8.toNat_add,UInt8.le_iff_toNat_le,UInt8.toNat_ofNat,Nat.reducePow,Nat.reduceMod] at *
      omega
    · rfl
  · rfl

theorem PrepDomainLabelLoop_valid {label : List UInt8} (bytes : ∀ c ∈ label, LabelByte c) (buf : List UInt8) :
    PrepDomainLabelLoop buf label = (buf ++ label.map mapped,true) := by
  induction label generalizing buf with
  | nil => rw [PrepDomainLabelLoop,List.map_nil,List.append_nil]
  | cons ch rest ih =>
    obtain ⟨byte,bytes⟩ := List.forall_mem_cons.mp bytes
    rw [LabelByte_iff] at byte
    rw [PrepDomainLabelLoop,List.map_cons,mapped]
    split
    · rename_i low
      rw [if_pos (byte low),ih bytes,List.append_assoc]
      rfl
    · rw [ih bytes,List.append_assoc]
      rfl

theorem PrepDomainLabelLoop_invalid {label : List UInt8} (bytes : ¬∀ c ∈ label, LabelByte c) (buf : List UInt8) :
    (PrepDomainLabelLoop buf label).2 = false := by
  induction label generalizing buf with
  | nil => exact absurd (List.forall_mem_nil _) bytes
  | cons ch rest ih =>
    rw [PrepDomainLabelLoop]
    by_cases byte : LabelByte ch
    · have later : ¬∀ c ∈ rest, LabelByte c := fun bytes' => bytes (List.forall_mem_cons.mpr ⟨byte,bytes'⟩)
      rw [LabelByte_iff] at byte
      split
      · rename_i low
        rw [if_pos (byte low)]
        exact ih later _
      · exact ih later _
    · rw [LabelByte_iff,Classical.not_imp] at byte
      obtain ⟨low,invalid⟩ := byte
      rw [if_pos low,if_neg invalid]

/-- The length of the buffer and where it was are taken as `int`s; what remains is the length
of the label. -/
theorem count_label (before label : Nat) :
    Int32.ofInt (((before + label : Nat) : Int) - (Int32.ofNat before).toInt) = Int32.ofNat label := by
  rw [← Int32.toInt_inj,Int32.toInt_ofInt,Int32.toInt_ofNat',Int32.toInt_ofNat']
  push_cast
  rw [Int.sub_bmod_bmod]
  congr 1
  omega

/-- Hyphens stand at the same places. -/
abbrev Alike : List UInt8 → List UInt8 → Prop := List.Forall₂ fun b c => b = hyphen ↔ c = hyphen

theorem alike_mapped {label : List UInt8} (bytes : ∀ c ∈ label, LabelByte c) : Alike (label.map mapped) label := by
  refine List.forall₂_map_left_iff.mpr ?_
  exact List.forall₂_same.mpr fun c member => mapped_hyphen (bytes c member)

theorem Alike.getElem? {buf before : List UInt8} (alike : Alike buf before) (i : Nat) :
    buf[i]? = none ∧ before[i]? = none ∨ ∃ b c, buf[i]? = some b ∧ before[i]? = some c ∧ (b = hyphen ↔ c = hyphen) := by
  induction alike generalizing i with
  | nil => exact .inl ⟨rfl,rfl⟩
  | cons same _ ih =>
    cases i with
    | zero => exact .inr ⟨_,_,rfl,rfl,same⟩
    | succ i => exact ih i

theorem PrepDomainLabel_unread {label buf : List UInt8} (unread : ¬((∀ c ∈ label, LabelByte c) ∧ Counted label)) :
    ∃ after, PrepDomainLabel label buf = some (after,false) := by
  rw [PrepDomainLabel]
  by_cases bytes : ∀ c ∈ label, LabelByte c
  · have uncounted : ¬Counted label := fun counted => unread ⟨bytes,counted⟩
    rw [PrepDomainLabelLoop_valid bytes]
    dsimp only
    rw [List.length_append,List.length_map,count_label]
    split
    · exact ⟨_,rfl⟩
    split
    · exact ⟨_,rfl⟩
    · exact absurd ⟨‹_›,‹_›⟩ uncounted
  · have invalid := PrepDomainLabelLoop_invalid bytes buf
    cases loop : PrepDomainLabelLoop buf label with
    | mk after valid =>
      rw [loop] at invalid
      subst invalid
      exact ⟨after,rfl⟩

theorem PrepDomainLabel_negative {label buf : List UInt8} (bytes : ∀ c ∈ label, LabelByte c) (counted : Counted label)
    (negative : Int32.ofNat buf.length < 0) : PrepDomainLabel label buf = none := by
  rw [PrepDomainLabel,PrepDomainLabelLoop_valid bytes]
  dsimp only
  rw [List.length_append,List.length_map,count_label,if_neg counted.1,if_neg counted.2,at?,if_pos negative]
  rfl

theorem Counted.some_ {label : List UInt8} (counted : Counted label) : label ≠ [] := by
  intro none_
  subst none_
  exact counted.1 rfl

theorem toNat_ofNat_le (n : Nat) : (Int32.ofNat n).toInt.toNat ≤ n := by
  rw [Int32.toInt_ofNat',Int.bmod,Int32.size]
  split
  · omega
  · omega

/-- The two characters are read, and compared with a hyphen. -/
theorem PrepDomainLabel_read {label buf before : List UInt8} (alike : Alike buf before) (bytes : ∀ c ∈ label, LabelByte c)
    (counted : Counted label) (start : ¬Int32.ofNat before.length < 0) :
    PrepDomainLabel label buf = some (buf ++ label.map mapped,
      decide (at? (before ++ label) (Int32.ofNat before.length) ≠ some hyphen ∧ label.getLast? ≠ some hyphen)) := by
  have whole : Alike (buf ++ label.map mapped) (before ++ label) := List.rel_append alike (alike_mapped bytes)
  have inside : (Int32.ofNat before.length).toInt.toNat < (before ++ label).length := by
    have low := toNat_ofNat_le before.length
    have positive := List.length_pos_of_ne_nil counted.some_
    rw [List.length_append]
    omega
  obtain ⟨-,none_⟩ | ⟨b,c,first,first',same⟩ := whole.getElem? (Int32.ofNat before.length).toInt.toNat
  · exact absurd (List.getElem?_eq_none_iff.mp none_) (Nat.not_le_of_gt inside)
  obtain ⟨-,none_⟩ | ⟨d,e,last,last',same'⟩ := whole.getElem? ((before ++ label).length - 1)
  · have last := List.getElem?_eq_none_iff.mp none_
    omega
  have final : label.getLast? = some e := by
    rw [← List.getLast?_eq_getElem?,List.getLast?_append_of_ne_nil _ counted.some_] at last'
    exact last'
  rw [PrepDomainLabel,PrepDomainLabelLoop_valid bytes]
  dsimp only
  rw [whole.length_eq,at?,alike.length_eq,if_neg start,first,last,at?,if_neg start,first',final,List.length_append,count_label,
    if_neg counted.1,if_neg counted.2]
  by_cases front : c = hyphen
  · rw [decide_eq_false fun both => both.1 (congrArg some front)]
    exact if_pos (same.mpr front)
  · refine (if_neg fun there => front (same.mp there)).trans ?_
    by_cases back : e = hyphen
    · rw [decide_eq_false fun both => both.2 (congrArg some back)]
      exact if_pos (same'.mpr back)
    · rw [decide_eq_true ⟨fun there => front (Option.some.inj there),fun there => back (Option.some.inj there)⟩]
      exact if_neg fun there => back (same'.mp there)

/-! ### Domains -/

/-- The loop over the domain, label by label. -/
def labelsLoop (buf : List UInt8) : List (List UInt8) → Option (List UInt8 × Bool)
  | [] => some (buf,false)
  | [label] => PrepDomainLabel label buf
  | label::next::labels => do
    let (buf,label_valid) ← PrepDomainLabel label buf
    if label_valid then labelsLoop (buf ++ [dot]) (next::labels) else some (buf ++ [dot],false)

theorem PrepDomainLoop_labels (label buf rest : List UInt8) :
    PrepDomainLoop label buf rest = labelsLoop buf ((rest.splitOn dot).modifyHead (label ++ ·)) := by
  induction rest generalizing label buf with
  | nil =>
    rw [List.splitOn_nil,List.modifyHead_cons,List.append_nil]
    rfl
  | cons ch rest ih =>
    rw [PrepDomainLoop,List.splitOn_cons_eq_if_modifyHead]
    by_cases ends : ch = dot
    · rw [if_pos ends,if_pos (beq_iff_eq.mpr ends),List.modifyHead_cons,List.append_nil]
      obtain ⟨next,labels,some_⟩ := List.exists_cons_of_ne_nil (List.splitOn_ne_nil dot rest)
      have later (buf : List UInt8) : PrepDomainLoop [] buf rest = labelsLoop buf (next::labels) := by
        rw [ih,some_,List.modifyHead_cons,List.nil_append]
      rw [some_,labelsLoop]
      simp only [later]
    · rw [if_neg ends,if_neg (fun same => ends (beq_iff_eq.mp same)),ih,List.modifyHead_modifyHead]
      congr 2
      funext piece
      exact List.append_assoc ..

theorem labelsLoop_cons (buf label : List UInt8) (labels : List (List UInt8)) :
    labelsLoop buf (label::labels) = (PrepDomainLabel label buf).bind fun result =>
      if labels = [] then some result
      else if result.2 then labelsLoop (result.1 ++ [dot]) labels else some (result.1 ++ [dot],false) := by
  cases labels with
  | nil =>
    rw [labelsLoop]
    cases PrepDomainLabel label buf with
    | none => rfl
    | some result => rfl
  | cons next labels => rfl

/-- The loop is defined where all reads are inside. -/
theorem labelsLoop_defined {buf before : List UInt8} (alike : Alike buf before) (labels : List (List UInt8)) :
    (∃ result, labelsLoop buf labels = some result) ↔ Starts before labels := by
  induction labels generalizing buf before with
  | nil => exact iff_of_true ⟨_,rfl⟩ trivial
  | cons label labels ih =>
    rw [labelsLoop_cons,Starts]
    by_cases read : (∀ c ∈ label, LabelByte c) ∧ Counted label
    · obtain ⟨bytes,counted⟩ := read
      by_cases start : Int32.ofNat before.length < 0
      · rw [PrepDomainLabel_negative bytes counted (alike.length_eq.symm ▸ start)]
        refine iff_of_false (fun defined => ?_) fun starts => (starts bytes counted).1 start
        obtain ⟨_,impossible⟩ := defined
        cases impossible
      · rw [PrepDomainLabel_read alike bytes counted start,Option.bind_some]
        have next : Alike (buf ++ label.map mapped ++ [dot]) (before ++ label ++ [dot]) :=
          List.rel_append (List.rel_append alike (alike_mapped bytes)) (List.forall₂_same.mpr fun _ _ => Iff.rfl)
        dsimp only
        by_cases valid : at? (before ++ label) (Int32.ofNat before.length) ≠ some hyphen ∧ label.getLast? ≠ some hyphen
        · have goes : (∃ result, labelsLoop (buf ++ label.map mapped ++ [dot]) labels = some result) ↔
              ((∀ c ∈ label, LabelByte c) → Counted label → ¬Int32.ofNat before.length < 0 ∧
                (at? (before ++ label) (Int32.ofNat before.length) ≠ some hyphen → label.getLast? ≠ some hyphen →
                  Starts (before ++ label ++ [dot]) labels)) :=
            (ih next).trans ⟨fun starts _ _ => ⟨start,fun _ _ => starts⟩,fun starts => (starts bytes counted).2 valid.1 valid.2⟩
          rw [← goes]
          split
          · rename_i none_
            subst none_
            exact iff_of_true ⟨_,rfl⟩ ⟨_,rfl⟩
          · rw [if_pos (decide_eq_true valid)]
        · refine iff_of_true ?_ fun _ _ => ⟨start,fun first last => absurd ⟨first,last⟩ valid⟩
          rw [if_neg (show ¬decide _ = true from fun same => valid (of_decide_eq_true same))]
          split
          · exact ⟨_,rfl⟩
          · exact ⟨_,rfl⟩
    · obtain ⟨after,stops⟩ := @PrepDomainLabel_unread label buf read
      rw [stops,Option.bind_some]
      refine iff_of_true ?_ fun bytes counted => absurd ⟨bytes,counted⟩ read
      split
      · exact ⟨_,rfl⟩
      · exact ⟨_,rfl⟩

theorem intercalate_length {label : List UInt8} {labels : List (List UInt8)} (some_ : labels ≠ []) :
    ([dot].intercalate (label::labels)).length = label.length + 1 + ([dot].intercalate labels).length := by
  obtain ⟨next,labels,rfl⟩ := List.exists_cons_of_ne_nil some_
  rw [List.intercalate_cons_cons,List.length_append,List.length_append,List.length_singleton]

theorem PrepDomainLabel_true {label buf after before : List UInt8} (alike : Alike buf before)
    (valid : PrepDomainLabel label buf = some (after,true)) : Alike after (before ++ label) := by
  by_cases read : (∀ c ∈ label, LabelByte c) ∧ Counted label
  · obtain ⟨bytes,counted⟩ := read
    by_cases start : Int32.ofNat before.length < 0
    · rw [PrepDomainLabel_negative bytes counted (alike.length_eq.symm ▸ start)] at valid
      cases valid
    · rw [PrepDomainLabel_read alike bytes counted start] at valid
      cases (Prod.mk.inj (Option.some.inj valid)).1
      exact List.rel_append alike (alike_mapped bytes)
  · obtain ⟨after,stops⟩ := @PrepDomainLabel_unread label buf read
    rw [stops] at valid
    cases valid

theorem Alike.dot {buf before : List UInt8} (alike : Alike buf before) : Alike (buf ++ [dot]) (before ++ [UserMgr.dot]) :=
  List.rel_append alike (List.forall₂_same.mpr fun _ _ => Iff.rfl)

/-- What a valid domain puts into the buffer is as long as the domain. -/
theorem labelsLoop_length {buf after before : List UInt8} (alike : Alike buf before) {labels : List (List UInt8)}
    (valid : labelsLoop buf labels = some (after,true)) : after.length = before.length + ([dot].intercalate labels).length := by
  induction labels generalizing buf before with
  | nil => cases valid
  | cons label labels ih =>
    rw [labelsLoop_cons] at valid
    obtain ⟨⟨mid,label_valid⟩,one,rest⟩ := Option.bind_eq_some_iff.mp valid
    by_cases last : labels = []
    · rw [if_pos last] at rest
      cases rest
      rw [(PrepDomainLabel_true alike one).length_eq,List.length_append,last,List.intercalate_singleton]
    · rw [if_neg last] at rest
      cases label_valid with
      | false => cases rest
      | true =>
        rw [ih (PrepDomainLabel_true alike one).dot rest,intercalate_length last,List.length_append,List.length_append,
          List.length_singleton]
        omega

/-- While the buffer is short, the `int`s are what they stand for. -/
theorem PrepDomainLabel_short {label buf before : List UInt8} (alike : Alike buf before)
    (short : before.length + label.length < 2 ^ 31) :
    ∃ result, PrepDomainLabel label buf = some result ∧ (result.2 = true ↔ Label label) := by
  have size : (Int32.ofNat before.length).toInt = before.length := Int32.toInt_ofNat_of_lt (by omega)
  have length : (Int32.ofNat label.length).toInt = label.length := Int32.toInt_ofNat_of_lt (by omega)
  have start : ¬Int32.ofNat before.length < 0 := by
    rw [Int32.lt_iff_toInt_lt,size,Int32.toInt_zero]
    omega
  have counted : Counted label ↔ label ≠ [] ∧ label.length ≤ 63 := by
    have zero : Int32.ofNat label.length = 0 ↔ label = [] := by
      rw [← Int32.toInt_inj,length,Int32.toInt_zero]
      exact Int.natCast_eq_zero.trans List.length_eq_zero_iff
    have most : ¬63 < Int32.ofNat label.length ↔ label.length ≤ 63 := by
      rw [Int32.lt_iff_toInt_lt,length,show (63 : Int32).toInt = 63 from rfl]
      omega
    rw [Counted,ne_eq,zero,most]
  by_cases read : (∀ c ∈ label, LabelByte c) ∧ Counted label
  · obtain ⟨bytes,small⟩ := read
    refine ⟨_,PrepDomainLabel_read alike bytes small start,?_⟩
    have first : at? (before ++ label) (Int32.ofNat before.length) = label.head? := by
      rw [at?,if_neg start,size,Int.toNat_natCast,List.getElem?_append_right le_rfl,Nat.sub_self,List.head?_eq_getElem?]
    rw [first,decide_eq_true_iff]
    exact ⟨fun both => ⟨small.some_,(counted.mp small).2,bytes,both.1,both.2⟩,fun label => ⟨label.first,label.last⟩⟩
  · obtain ⟨after,stops⟩ := @PrepDomainLabel_unread label buf read
    exact ⟨_,stops,iff_of_false Bool.false_ne_true fun label => read ⟨label.bytes,counted.mpr ⟨label.some_,label.length⟩⟩⟩

/-- A domain that is not too long is valid if and only if its labels are. -/
theorem labelsLoop_valid {buf before : List UInt8} (alike : Alike buf before) {labels : List (List UInt8)} (some_ : labels ≠ [])
    (short : before.length + ([dot].intercalate labels).length < 2 ^ 31) :
    ∃ result, labelsLoop buf labels = some result ∧ (result.2 = true ↔ ∀ label ∈ labels, Label label) := by
  induction labels generalizing buf before with
  | nil => exact absurd rfl some_
  | cons label labels ih =>
    by_cases last : labels = []
    · subst last
      rw [List.intercalate_singleton] at short
      obtain ⟨result,one,valid⟩ := PrepDomainLabel_short alike short
      refine ⟨result,?_,valid.trans List.forall_mem_singleton.symm⟩
      exact one
    · rw [intercalate_length last] at short
      obtain ⟨⟨mid,label_valid⟩,one,valid⟩ := PrepDomainLabel_short alike (show before.length + label.length < 2 ^ 31 by omega)
      rw [labelsLoop_cons,one,Option.bind_some,if_neg last,List.forall_mem_cons,← valid]
      cases label_valid with
      | false => exact ⟨_,rfl,iff_of_false Bool.false_ne_true fun both => Bool.false_ne_true both.1⟩
      | true =>
        obtain ⟨result,run,rest⟩ := ih (PrepDomainLabel_true alike one).dot last (by
          rw [List.length_append,List.length_append,List.length_singleton]
          omega)
        exact ⟨result,run,rest.trans (and_iff_right rfl).symm⟩

theorem Label.dot {label : List UInt8} (valid : Label label) : UserMgr.dot ∉ label := by
  intro member
  have byte := valid.bytes _ member
  rw [LabelByte] at byte
  revert byte
  decide

theorem Domain_iff (domain : List UInt8) :
    Domain domain ↔ domain.length ≤ 1023 ∧ ∀ label ∈ domain.splitOn dot, Label label := by
  constructor
  · intro valid
    obtain ⟨length,labels,some_,rfl,valid⟩ := valid
    rw [List.splitOn_intercalate dot (fun label listed => (valid label listed).dot) some_]
    exact ⟨length,valid⟩
  · intro both
    exact ⟨both.1,_,List.splitOn_ne_nil dot domain,(List.intercalate_splitOn dot).symm,both.2⟩

theorem PrepDomainLoop_domain (domain : List UInt8) :
    PrepDomainLoop [] [] domain = labelsLoop [] (domain.splitOn dot) := by
  rw [PrepDomainLoop_labels]
  obtain ⟨next,labels,some_⟩ := List.exists_cons_of_ne_nil (List.splitOn_ne_nil dot domain)
  rw [some_,List.modifyHead_cons,List.nil_append]

theorem PrepDomain_defined (domain : List UInt8) : (∃ result, PrepDomain domain = some result) ↔ Starts [] (domain.splitOn dot) := by
  rw [← labelsLoop_defined .nil,← PrepDomainLoop_domain,PrepDomain]
  constructor
  · intro defined
    obtain ⟨_,run⟩ := defined
    obtain ⟨result,run,-⟩ := Option.bind_eq_some_iff.mp run
    exact ⟨result,run⟩
  · intro defined
    obtain ⟨⟨after,valid⟩,run⟩ := defined
    rw [run]
    cases valid with
    | false => exact ⟨_,rfl⟩
    | true =>
      by_cases long : 1023 < after.length
      · exact ⟨_,if_pos long⟩
      · exact ⟨_,if_neg long⟩

/-- Where it is defined, it is right. -/
theorem PrepDomain_valid {domain : List UInt8} {result : List UInt8 × Bool} (run : PrepDomain domain = some result) :
    result.2 = true ↔ Domain domain := by
  have alike : Alike [] [] := .nil
  obtain ⟨⟨after,valid⟩,loop,done⟩ := Option.bind_eq_some_iff.mp run
  rw [PrepDomainLoop_domain] at loop
  -- the `int`s are right for all domains that are not too long
  have short (length : domain.length ≤ 1023) : valid = true ↔ ∀ label ∈ domain.splitOn dot, Label label := by
    obtain ⟨result,again,labels⟩ := labelsLoop_valid alike (List.splitOn_ne_nil dot domain) (by
      rw [List.intercalate_splitOn,List.length_nil]
      omega)
    cases loop.symm.trans again
    exact labels
  rw [Domain_iff]
  cases valid with
  | false =>
    cases done
    exact iff_of_false Bool.false_ne_true fun both => Bool.false_ne_true ((short both.1).mpr both.2)
  | true =>
    have length := labelsLoop_length alike loop
    rw [List.intercalate_splitOn,List.length_nil,Nat.zero_add] at length
    by_cases long : 1023 < after.length
    · cases (if_pos long).symm.trans done
      exact iff_of_false Bool.false_ne_true fun both => by omega
    · cases (if_neg long).symm.trans done
      have fits : domain.length ≤ 1023 := by omega
      exact iff_of_true rfl ⟨fits,(short fits).mp rfl⟩

/-! ### Names -/

section Users
variable {tolower : UInt8 → UInt8}

theorem PrepNodeLoop_valid {node : List UInt8} (bytes : ∀ c ∈ node, c ≤ 0x7F → (PrepNodeAscii c).2 = true) (result : List UInt8) :
    ∃ after, PrepNodeLoop tolower result node = some after ∧ after.length = result.length + node.length := by
  induction node generalizing result with
  | nil => exact ⟨result,rfl,rfl⟩
  | cons ch rest ih =>
    obtain ⟨byte,bytes⟩ := List.forall_mem_cons.mp bytes
    have longer (c : UInt8) : ∃ after, PrepNodeLoop tolower (result ++ [c]) rest = some after ∧
        after.length = result.length + (ch::rest).length := by
      obtain ⟨after,run,length⟩ := ih bytes (result ++ [c])
      rw [List.length_append,List.length_singleton] at length
      exact ⟨after,run,by rw [length,List.length_cons]; omega⟩
    rw [PrepNodeLoop]
    split
    · rename_i low
      rw [if_pos (byte low)]
      exact longer _
    · exact longer _

theorem PrepNodeLoop_invalid {node : List UInt8} (bytes : ¬∀ c ∈ node, c ≤ 0x7F → (PrepNodeAscii c).2 = true) (result : List UInt8) :
    PrepNodeLoop tolower result node = none := by
  induction node generalizing result with
  | nil => exact absurd (List.forall_mem_nil _) bytes
  | cons ch rest ih =>
    rw [PrepNodeLoop]
    by_cases byte : ch ≤ 0x7F → (PrepNodeAscii ch).2 = true
    · have later : ¬∀ c ∈ rest, c ≤ 0x7F → (PrepNodeAscii c).2 = true :=
        fun bytes' => bytes (List.forall_mem_cons.mpr ⟨byte,bytes'⟩)
      split
      · rename_i low
        rw [if_pos (byte low)]
        exact ih later _
      · exact ih later _
    · obtain ⟨low,invalid⟩ := Classical.not_imp.mp byte
      rw [if_pos low,if_neg invalid]

theorem PrepNode_spec {node : List UInt8} (some_ : node ≠ []) : (PrepNode tolower node).2 = true ↔ Node node := by
  rw [PrepNode]
  by_cases bytes : ∀ c ∈ node, c ≤ 0x7F → (PrepNodeAscii c).2 = true
  · obtain ⟨result,run,length⟩ := @PrepNodeLoop_valid tolower node bytes []
    rw [List.length_nil,Nat.zero_add] at length
    rw [run]
    dsimp only
    split
    · exact iff_of_false Bool.false_ne_true fun valid => absurd valid.length (by omega)
    · exact iff_of_true rfl ⟨some_,by omega,bytes⟩
  · rw [PrepNodeLoop_invalid bytes]
    exact iff_of_false Bool.false_ne_true fun valid => bytes valid.bytes

theorem findIdx_at {node : List UInt8} (before : at_ ∉ node) (domain : List UInt8) :
    (node ++ at_::domain).findIdx? (· = at_) = some node.length := by
  have none_ : node.findIdx? (· = at_) = none := by
    refine List.findIdx?_eq_none_iff.mpr fun c member => ?_
    exact decide_eq_false fun same => before (same ▸ member)
  rw [List.findIdx?_append,none_,Option.none_or,List.findIdx?_cons,if_pos (decide_eq_true rfl)]
  exact congrArg some (Nat.zero_add _)

theorem split_unique {node domain node' domain' : List UInt8} (before : at_ ∉ node) (before' : at_ ∉ node')
    (same : node ++ at_::domain = node' ++ at_::domain') : node = node' ∧ domain = domain' := by
  have found := findIdx_at before domain
  rw [same,findIdx_at before'] at found
  exact List.append_inj same (Option.some.inj found).symm |>.imp_right fun tails => (List.cons.inj tails).2

theorem CheckUserInfo_split {node domain : List UInt8} (before : at_ ∉ node) (some_ : node ≠ []) (more : domain ≠ []) :
    CheckUserInfo tolower (node ++ at_::domain) =
      (PrepDomain domain).map fun result => (PrepNode tolower node).2 && result.2 := by
  rw [CheckUserInfo,if_neg (List.append_ne_nil_of_left_ne_nil some_ _),findIdx_at before]
  dsimp only
  have rest : (node ++ at_::domain).drop (node.length + 1) = domain := by
    rw [← List.drop_drop,List.drop_left]
    rfl
  rw [List.take_left,rest,if_neg (not_or.mpr ⟨more,some_⟩)]
  cases PrepDomain domain with
  | none => rfl
  | some result => rfl

/-- A name without both parts is refused before anything is read. -/
theorem CheckUserInfo_parts {username : List UInt8}
    (parts : ¬∃ node domain, username = node ++ at_::domain ∧ at_ ∉ node ∧ node ≠ [] ∧ domain ≠ []) :
    CheckUserInfo tolower username = some false := by
  rw [CheckUserInfo]
  split
  · rfl
  by_cases found : at_ ∈ username
  · obtain ⟨node,domain,rfl,before⟩ := List.eq_append_cons_of_mem found
    rw [findIdx_at before]
    dsimp only
    have rest : (node ++ at_::domain).drop (node.length + 1) = domain := by
      rw [← List.drop_drop,List.drop_left]
      rfl
    rw [List.take_left,rest,if_pos]
    by_contra both
    obtain ⟨more,some_⟩ := not_or.mp both
    exact parts ⟨node,domain,rfl,before,some_,more⟩
  · have none_ : username.findIdx? (· = at_) = none := by
      refine List.findIdx?_eq_none_iff.mpr fun c member => ?_
      exact decide_eq_false fun same => found (same ▸ member)
    rw [none_]
    exact if_pos (.inr rfl)

theorem Domain.some_ {domain : List UInt8} (valid : Domain domain) : domain ≠ [] := by
  intro none_
  rw [none_,Domain_iff] at valid
  exact (valid.2 [] (by rw [List.splitOn_nil]; exact List.mem_cons_self)).some_ rfl

/-- A name with both parts, or one that is refused at once. -/
theorem parts_or (username : List UInt8) :
    (∃ node domain, username = node ++ at_::domain ∧ at_ ∉ node ∧ node ≠ [] ∧ domain ≠ []) ∨
      CheckUserInfo tolower username = some false ∧ ¬Address username ∧ Indexed username := by
  by_cases parts : ∃ node domain, username = node ++ at_::domain ∧ at_ ∉ node ∧ node ≠ [] ∧ domain ≠ []
  · exact .inl parts
  · refine .inr ⟨CheckUserInfo_parts parts,fun address => ?_,?_⟩
    · obtain ⟨node,domain,same,before,node_,domain_⟩ := address
      exact parts ⟨node,domain,same,before,node_.some_,domain_.some_⟩
    · intro node domain same before some_ more
      exact absurd ⟨node,domain,same,before,some_,more⟩ parts

theorem CheckUserInfo_defined (username : List UInt8) :
    (∃ accepted, CheckUserInfo tolower username = some accepted) ↔ Indexed username := by
  obtain ⟨node,domain,rfl,before,some_,more⟩ | ⟨refused,-,indexed⟩ := @parts_or tolower username
  · have indexed : Indexed (node ++ at_::domain) ↔ Starts [] (domain.splitOn dot) := by
      constructor
      · exact fun indexed => indexed node domain rfl before some_ more
      · intro starts node' domain' same before' _ _
        obtain ⟨rfl,rfl⟩ := split_unique before before' same
        exact starts
    rw [CheckUserInfo_split before some_ more,indexed,← PrepDomain_defined]
    constructor
    · intro defined
      obtain ⟨_,run⟩ := defined
      obtain ⟨result,run,-⟩ := Option.map_eq_some_iff.mp run
      exact ⟨result,run⟩
    · intro defined
      obtain ⟨result,run⟩ := defined
      exact ⟨_,congrArg (Option.map _) run⟩
  · exact iff_of_true ⟨false,refused⟩ indexed

theorem CheckUserInfo_valid {username : List UInt8} {accepted : Bool} (check : CheckUserInfo tolower username = some accepted) :
    accepted = true ↔ Address username := by
  obtain ⟨node,domain,rfl,before,some_,more⟩ | ⟨refused,other,-⟩ := @parts_or tolower username
  · rw [CheckUserInfo_split before some_ more] at check
    obtain ⟨result,run,rfl⟩ := Option.map_eq_some_iff.mp check
    rw [Bool.and_eq_true,PrepNode_spec some_,PrepDomain_valid run]
    constructor
    · exact fun valid => ⟨node,domain,rfl,before,valid⟩
    · intro address
      obtain ⟨node',domain',same,before',valid⟩ := address
      obtain ⟨rfl,rfl⟩ := split_unique before before' same
      exact valid
  · cases refused.symm.trans check
    exact iff_of_false Bool.false_ne_true other

/-- What is sent of an accepted user. -/
def MailUserInfo.info (mailinfo : MailUserInfo) : Info := ⟨mailinfo.uid,mailinfo.username,c_str mailinfo.nickname⟩

theorem mem_intercalate {labels : List (List UInt8)} {c : UInt8} (member : c ∈ [dot].intercalate labels) :
    c = dot ∨ ∃ label ∈ labels, c ∈ label := by
  induction labels with
  | nil => cases member
  | cons label labels ih =>
    by_cases last : labels = []
    · rw [last,List.intercalate_singleton] at member
      exact .inr ⟨label,List.mem_cons_self,member⟩
    · obtain ⟨next,labels,rfl⟩ := List.exists_cons_of_ne_nil last
      rw [List.intercalate_cons_cons,List.append_assoc,List.mem_append,List.mem_append] at member
      obtain here | dot_ | later := member
      · exact .inr ⟨label,List.mem_cons_self,here⟩
      · exact .inl (List.mem_singleton.mp dot_)
      · obtain same | ⟨found,listed,inside⟩ := ih later
        · exact .inl same
        · exact .inr ⟨found,List.mem_cons_of_mem _ listed,inside⟩

/-- No accepted name is cut. -/
theorem Address.clean {username : List UInt8} (address : Address username) : c_str username = username := by
  obtain ⟨node,domain,rfl,-,valid,domain_⟩ := address
  obtain ⟨-,labels,-,rfl,labels_⟩ := domain_
  refine Storage.c_str_eq fun c member => ?_
  obtain node_ | rest := List.mem_append.mp member
  · rintro rfl
    exact Bool.false_ne_true (valid.bytes 0 node_ (by decide))
  obtain rfl | domain_ := List.mem_cons.mp rest
  · decide
  obtain rfl | ⟨label,listed,inside⟩ := mem_intercalate domain_
  · decide
  · rintro rfl
    have byte := (labels_ label listed).bytes 0 inside
    rw [LabelByte] at byte
    revert byte
    decide

open Classical in
theorem GetUserInfoMail_iff (list : List MailUserInfo) (value : List Info) :
    GetUserInfoMail tolower list value =
        some (value ++ (list.filter fun mailinfo => Address mailinfo.username).map MailUserInfo.info) ↔
      ∀ mailinfo ∈ list, Indexed mailinfo.username := by
  induction list generalizing value with
  | nil =>
    rw [List.filter_nil,List.map_nil,List.append_nil]
    exact iff_of_true rfl (List.forall_mem_nil _)
  | cons mailinfo list ih =>
    rw [List.forall_mem_cons,← @CheckUserInfo_defined tolower,GetUserInfoMail]
    cases check : CheckUserInfo tolower mailinfo.username with
    | none =>
      refine iff_of_false (fun ran => ?_) fun both => ?_
      · cases ran
      · obtain ⟨⟨_,impossible⟩,-⟩ := both
        cases impossible
    | some accepted =>
      rw [and_iff_right ⟨accepted,rfl⟩,Option.bind_eq_bind,Option.bind_some]
      have right := CheckUserInfo_valid check
      cases accepted with
      | false =>
        rw [List.filter_cons_of_neg (by rw [decide_eq_true_iff,← right]; exact Bool.false_ne_true)]
        exact ih value
      | true =>
        have address := right.mp rfl
        rw [List.filter_cons_of_pos (by rw [decide_eq_true_iff]; exact address),List.map_cons,if_pos rfl,address.clean,
          ← ih (value ++ [mailinfo.info]),List.append_assoc]
        rfl

end Users

/-- So it is for all names that an `int` can count. -/
theorem indexed_short {username : List UInt8} (short : username.length < 2 ^ 31) : Indexed username := by
  rintro node domain rfl before some_ more
  rw [List.length_append,List.length_cons] at short
  rw [← labelsLoop_defined .nil]
  obtain ⟨result,run,-⟩ := labelsLoop_valid .nil (List.splitOn_ne_nil dot domain) (by
    rw [List.intercalate_splitOn,List.length_nil]
    omega)
  exact ⟨result,run⟩

theorem letters_unindexed {letters : List UInt8} (only : ∀ c ∈ letters, c = 97) (length : letters.length = 2 ^ 31) :
    ¬Indexed ([97] ++ at_::(letters ++ dot::[98])) := by
  intro indexed
  have starts := indexed [97] (letters ++ dot::[98]) rfl (by decide) (List.cons_ne_nil _ _)
    (List.append_ne_nil_of_right_ne_nil _ (List.cons_ne_nil _ _))
  have whole : dot ∉ letters := by
    intro member
    cases only dot member
  rw [List.splitOn_append_cons_self_of_not_mem whole,List.splitOn_eq_singleton (show dot ∉ [98] by decide)] at starts
  have bytes (c : UInt8) (member : c ∈ letters) : LabelByte c := by
    rw [only c member,LabelByte]
    decide
  have counted : Counted letters := by
    rw [Counted,length]
    decide
  have first : at? ([] ++ letters) (Int32.ofNat ([] : List UInt8).length) ≠ some hyphen := by
    intro same
    have member : hyphen ∈ letters := List.mem_of_getElem? same
    cases only hyphen member
  have last : letters.getLast? ≠ some hyphen := by
    intro same
    cases only hyphen (List.mem_of_getLast? same)
  have next := (starts bytes counted).2 first last
  have bytes' (c : UInt8) (member : c ∈ ([98] : List UInt8)) : LabelByte c := by
    rw [List.mem_singleton.mp member,LabelByte]
    decide
  have counted' : Counted [98] := by
    rw [Counted]
    decide
  refine (next bytes' counted').1 ?_
  rw [List.nil_append,List.length_append,length,List.length_singleton]
  decide

/-- `a@aa...a.b`, with two to the power of 31 letters in the first label. -/
def longName : List UInt8 := [97] ++ at_::(List.replicate (2 ^ 31) 97 ++ dot::[98])

/-- As `tolower` does in the C locale. -/
def lower (c : UInt8) : UInt8 := if 65 ≤ c ∧ c ≤ 90 then c + 32 else c

end Migfm.Master.UserMgr
