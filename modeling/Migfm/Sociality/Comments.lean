import Migfm.Library.Ordered
import Migfm.Public.BasicInfo
import Migfm.Public.Numbers

/-! The comments of a song in master/sociality/dic_comm.cc: each is written as one member of a
sorted set, and a page of them is read back. Redis answers, and a key is used for one type only. -/
namespace Migfm.Sociality.Comments
open Library.Ordered Public.Json
open Public (clean_decimal)
open Logic (ascii decimal decimalDigits)

/-- As `localtime` gives it. -/
structure Tm where
  tm_year : Int32
  tm_mon : Int32
  tm_mday : Int32
  tm_hour : Int32
  tm_min : Int32
  tm_sec : Int32

def GetCurrntTimeFormat (local_ : Tm) : List UInt8 :=
  decimal (1900 + local_.tm_year).toInt ++ ascii "-" ++ decimal (1 + local_.tm_mon).toInt ++ ascii "-" ++
    decimal local_.tm_mday.toInt ++ ascii " " ++ decimal local_.tm_hour.toInt ++ ascii ":" ++
    decimal local_.tm_min.toInt ++ ascii ":" ++ decimal local_.tm_sec.toInt

/-! ### Redis -/

/-- A sorted set: the scores and members in ascending order. Up to 2^53 a score is exact. -/
abbrev SortedSet := List (Int64 × List UInt8)

structure Redis where
  counters : List UInt8 → Int64
  ssets : List UInt8 → SortedSet

namespace Redis

/-- `INCR`: an overflow is an error, whose reply has 0 for an integer. -/
def RedisIncDecValue (redis : Redis) (key : List UInt8) : Int64 × Redis :=
  if redis.counters key = Int64.maxValue then (0,redis)
  else
    let value := redis.counters key + 1
    (value,{redis with counters := Function.update redis.counters key value})

def ZADD (entries : SortedSet) (score : Int64) (member : List UInt8) : SortedSet :=
  place (fun entry => entry.1 < score ∨ (entry.1 = score ∧ entry.2 < member)) (score,member)
    (entries.filter fun entry => entry.2 ≠ member)

/-- From the highest score to the lowest. A negative count means all. -/
def ZREVRANGEBYSCORE (entries : SortedSet) (offset count : Int64) : List (List UInt8) :=
  if offset < 0 then []
  else
    let rest := (entries.reverse.drop offset.toInt.toNat).map (·.2)
    if count < 0 then rest else rest.take count.toInt.toNat

end Redis

/-! ### dic_comm.cc -/

def KEY_COMMENT_ID_GEN (songid : Int64) : List UInt8 := ascii "soc:song:" ++ decimal songid.toInt ++ ascii ":comment.id:next"
def KEY_COMMENT_SSET (songid : Int64) : List UInt8 := ascii "soc:song:" ++ decimal songid.toInt ++ ascii ":comment"

/-- `std::ends` writes a zero. -/
def content (comment_id uid : Int64) (comment cur_time : List UInt8) : List UInt8 :=
  ascii "\x7b" ++ ascii "\"id\":" ++ decimal comment_id.toInt ++ ascii ",\"uid\":\"" ++ decimal uid.toInt ++ ascii "\"" ++
    ascii ",\"text\":\"" ++ c_str comment ++ ascii "\"" ++ ascii ",\"createdtime\":\"" ++ cur_time ++ ascii "\"" ++ ascii "\x7d" ++ [0]

structure Call where
  songid : Int64
  uid : Int64
  comment : List UInt8
  local_ : Tm

def SaveSongComment (redis : Redis) (call : Call) : Redis :=
  let (comment_id,redis) := redis.RedisIncDecValue (KEY_COMMENT_ID_GEN call.songid)
  let content_str := content comment_id call.uid call.comment (GetCurrntTimeFormat call.local_)
  let comm_key := KEY_COMMENT_SSET call.songid
  {redis with ssets := Function.update redis.ssets comm_key (Redis.ZADD (redis.ssets comm_key) comment_id (c_str content_str))}

section Reading
variable (codePointToUTF8 : Nat → List UInt8) (sscanf : List UInt8 → Option Float)

/-- `total` and what is appended to `result`. -/
def ReadSongComment (redis : Redis) (songid from_id : Int64) (count : Int32) : Nat × List Value :=
  let entries := redis.ssets (KEY_COMMENT_SSET songid)
  let total := entries.length
  if total = 0 then (0,[])
  else (total,(Redis.ZREVRANGEBYSCORE entries from_id count.toInt64).filterMap (readDocument codePointToUTF8 sscanf))

end Reading

/-! ### What is promised -/

/-- The comments of a song with their ids. -/
def comments (songid : Int64) (calls : List Call) : List (Nat × Call) :=
  (calls.filter fun call => call.songid = songid).mapIdx fun before call => (before + 1,call)

/-- The newest first. -/
def page (songid from_id : Int64) (count : Int32) (calls : List Call) : List (Nat × Call) :=
  ((comments songid calls).reverse.drop from_id.toInt.toNat).take count.toInt.toNat

def Shows (item : Value) (comment : Nat × Call) : Prop :=
  (∃ id, item.member (ascii "id") = some id ∧ id.number = some (comment.1 : Int)) ∧
  item.member (ascii "uid") = some (.string (decimal comment.2.uid.toInt)) ∧
  item.member (ascii "text") = some (.string comment.2.comment)

def Init : Redis := ⟨fun _ => 0,fun _ => []⟩

/-- What is read after the calls. -/
def PageRight (codePointToUTF8 : Nat → List UInt8) (sscanf : List UInt8 → Option Float) (calls : List Call)
    (songid from_id : Int64) (count : Int32) : Prop :=
  let (total,result) := ReadSongComment codePointToUTF8 sscanf (calls.foldl SaveSongComment Init) songid from_id count
  total = (comments songid calls).length ∧ List.Forall₂ Shows result (page songid from_id count calls)

/-! ### A comment in its text -/

def fields (uid : Int64) (text cur_time : List UInt8) : List Field :=
  [(ascii "uid",decimal uid.toInt),(ascii "text",text),(ascii "createdtime",cur_time)]

def numbered (id : Nat) (fields : List Field) : List UInt8 := 123::34::105::100::34::58::(decimalDigits id ++ 44::members fields)

theorem Clean.append {first second : List UInt8} (one : Clean first) (two : Clean second) : Clean (first ++ second) := by
  constructor
  · intro c listed
    rcases List.mem_append.mp listed with inside | inside
    · exact one.plain c inside
    · exact two.plain c inside
  · intro zero
    rcases List.mem_append.mp zero with inside | inside
    · exact one.nonzero inside
    · exact two.nonzero inside

theorem clean_time (local_ : Tm) : Clean (GetCurrntTimeFormat local_) := by
  have dash : Clean (ascii "-") := Clean.of_all rfl
  have blank : Clean (ascii " ") := Clean.of_all rfl
  have colon : Clean (ascii ":") := Clean.of_all rfl
  rw [GetCurrntTimeFormat]
  exact Clean.append (Clean.append (Clean.append (Clean.append (Clean.append (Clean.append (Clean.append (Clean.append
    (Clean.append (Clean.append (clean_decimal _) dash) (clean_decimal _)) dash) (clean_decimal _)) blank) (clean_decimal _))
    colon) (clean_decimal _)) colon) (clean_decimal _)

theorem names (uid : Int64) (text cur_time : List UInt8) : ∀ field ∈ fields uid text cur_time, Name field.1 :=
  names_of ["uid","text","createdtime"] rfl rfl

section Content
variable (uid : Int64) {text cur_time : List UInt8} (nonzero : 0 ∉ text) (clean : Clean cur_time)
include nonzero clean

theorem members_nonzero : 0 ∉ members (fields uid text cur_time) := by
  have whole := record_nonzero (names uid text cur_time) (by
    simp only [fields,List.forall_mem_cons]
    exact ⟨(clean_decimal _).nonzero,nonzero,clean.nonzero,fun _ member => nomatch member⟩)
  exact fun zero => whole (List.mem_cons_of_mem _ zero)

theorem numbered_nonzero (id : Nat) : 0 ∉ numbered id (fields uid text cur_time) := by
  have digits : 0 ∉ decimalDigits id := fun zero => absurd (digit_bounds 0 zero).1 (by decide)
  have rest := members_nonzero uid nonzero clean
  simp [numbered,digits,rest]

end Content

theorem content_eq (id : Nat) {comment_id : Int64} (same : comment_id.toInt = id) (uid : Int64) (comment : List UInt8)
    {cur_time : List UInt8} (clean : Clean cur_time) :
    c_str (content comment_id uid comment cur_time) = numbered id (fields uid (c_str comment) cur_time) := by
  have number : decimal (id : Int) = decimalDigits id := by rw [decimal,if_neg (by omega)]; rfl
  have whole : content comment_id uid comment cur_time = numbered id (fields uid (c_str comment) cur_time) ++ [0] := by
    rw [content,same,number]
    simp only [numbered,fields,members,List.isEmpty_cons,List.isEmpty_nil,if_true,Bool.false_eq_true,if_false,
      List.append_assoc,List.cons_append]
    rfl
  have nonzero := numbered_nonzero uid (c_str_zero comment) clean id
  rw [whole,c_str,List.takeWhile_append_of_pos]
  · simp
  · intro c listed
    apply decide_eq_true
    rintro rfl
    exact nonzero listed

section Reading
variable (codePointToUTF8 : Nat → List UInt8) (sscanf : List UInt8 → Option Float)

/-- Behind the id the strings are left. -/
theorem parse_numbered {id : Nat} (small : id < 2 ^ 63) (fields : List Field) : ∃ value, value.number = some (id : Int) ∧
    ∀ fuel, parse codePointToUTF8 sscanf (fuel + 3) (numbered id fields) =
      (readObject codePointToUTF8 sscanf (fuel + 1) [(ascii "id",value)] (ascii "id") (members fields)).map Prod.fst := by
  obtain ⟨value,decoded,number⟩ := decodeNumber_decimal sscanf small
  refine ⟨value,number,?_⟩
  intro fuel
  have name : Plain [105,100] := by simp [Plain]
  have after : readToken (34::105::100::34::58::(decimalDigits id ++ 44::members fields)) =
      (.string [105,100],58::(decimalDigits id ++ 44::members fields)) := readToken_quoted name _
  have digits : readValue codePointToUTF8 sscanf (fuel + 1) (decimalDigits id ++ 44::members fields) =
      some (value,44::members fields) := by
    rw [readValue,skipCommentTokens_of (readToken_decimal id _) (by simp)]
    simp only [decoded,Option.map_some]
  have comma : readComma (44::members fields) = some (false,members fields) := by
    rw [readComma,readToken_mark .arraySeparator _ (by simp)]
  rw [parse,numbered,readValue,skipCommentTokens_of (readToken_mark .objectBegin _ (by simp)) (by simp)]
  dsimp only
  rw [readObject,skipCommentTokens_of after (by simp)]
  simp only [decodeString_plain codePointToUTF8 name,Option.bind_eq_bind,Option.bind_some,readColon_first,digits,comma,
    Bool.false_eq_true,if_false]
  rfl

variable {id : Nat} (uid : Int64) {text cur_time : List UInt8}

theorem read_clean (small : id < 2 ^ 63) (clean : Clean text) (time : Clean cur_time) : ∃ item,
    readDocument codePointToUTF8 sscanf (numbered id (fields uid text cur_time)) = some item ∧
      (∃ number, item.member (ascii "id") = some number ∧ number.number = some (id : Int)) ∧
      item.member (ascii "uid") = some (.string (decimal uid.toInt)) ∧ item.member (ascii "text") = some (.string text) := by
  obtain ⟨value,number,parsed⟩ := parse_numbered codePointToUTF8 sscanf small (fields uid text cur_time)
  have plain : ∀ field ∈ fields uid text cur_time, Plain field.2 := by
    simp only [fields,List.forall_mem_cons]
    exact ⟨(clean_decimal _).plain,clean.plain,time.plain,fun _ member => nomatch member⟩
  have long : 6 ≤ (numbered id (fields uid text cur_time)).length := by simp [numbered]
  obtain ⟨fuel,enough⟩ : ∃ fuel, 2 * (numbered id (fields uid text cur_time)).length + 2 = fuel + 3 :=
    ⟨2 * (numbered id (fields uid text cur_time)).length - 1,by omega⟩
  have enough_ : (fields uid text cur_time).length < fuel + 1 := by
    simp only [fields,List.length_cons,List.length_nil]
    omega
  have whole := @readObject_members codePointToUTF8 sscanf _ (names uid text cur_time) plain (by simp [fields]) (fuel + 1) enough_
    [(ascii "id",value)] (ascii "id")
  have outcome := parsed fuel
  rw [whole,← enough] at outcome
  exact ⟨_,outcome,⟨value,rfl,number⟩,rfl,rfl⟩

/-- Only a clean text is there again. -/
theorem clean_of_member (short : ∀ unicode, (codePointToUTF8 unicode).length ≤ 4) (small : id < 2 ^ 63) (time : Clean cur_time)
    {comment : List UInt8} {item : Value}
    (parsed : readDocument codePointToUTF8 sscanf (numbered id (fields uid (c_str comment) cur_time)) = some item)
    (shown : item.member (ascii "text") = some (.string comment)) : Clean comment := by
  obtain ⟨value,number,parse_eq⟩ := parse_numbered codePointToUTF8 sscanf small (fields uid (c_str comment) cur_time)
  have long : 6 ≤ (numbered id (fields uid (c_str comment) cur_time)).length := by simp [numbered]
  obtain ⟨fuel,enough⟩ : ∃ fuel, 2 * (numbered id (fields uid (c_str comment) cur_time)).length + 2 = fuel + 3 :=
    ⟨2 * (numbered id (fields uid (c_str comment) cur_time)).length - 1,by omega⟩
  rw [readDocument,enough,parse_eq,Option.map_eq_some_iff] at parsed
  obtain ⟨⟨_,rest⟩,parsed,rfl⟩ := parsed
  obtain ⟨-,all,rfl,stands⟩ := (reads codePointToUTF8 sscanf _).object parsed
  -- the text that is shown stands in the members
  have listed : (ascii "text",Value.string comment) ∈ all := by
    rw [Value.member,Option.some_inj] at shown
    cases found : all.lookup (ascii "text") with
    | none =>
      rw [found] at shown
      cases shown
    | some other =>
      rw [found,Option.getD_some] at shown
      subst shown
      obtain ⟨before,after,same,-⟩ := List.lookup_eq_some_iff.mp found
      simp [same]
  obtain inside | ⟨after,⟨start,content,starts,quoted,decoded⟩,follows⟩ := stands _ _ listed
  · rw [List.mem_singleton,Prod.mk.injEq] at inside
    exact absurd inside.1 (by decide)
  have nonzero : 0 ∉ content := by
    intro zero
    apply members_nonzero uid (c_str_zero comment) time
    apply starts.subset
    rw [readString_eq quoted]
    exact List.mem_cons_of_mem _ (List.mem_append_left _ zero)
  by_cases plain : Plain content
  · rw [decodeString_plain codePointToUTF8 plain] at decoded
    cases decoded
    exact ⟨plain,nonzero⟩
  · -- something is escaped, so it is shorter than where it stands
    have shorter := (decodeString_length codePointToUTF8 short decoded).2 plain
    obtain clear | ⟨field,member,special,longer⟩ := content_cases (names uid (c_str comment) cur_time) starts quoted follows
    · exact absurd clear plain
    · simp only [fields,List.mem_cons,List.not_mem_nil,or_false] at member
      rcases member with rfl | rfl | rfl
      · exact absurd (clean_decimal _).plain special
      · have cut := (List.takeWhile_sublist (· ≠ 0) (l := comment)).length_le
        exact absurd (cut.trans_lt (shorter.trans_le longer)) (lt_irrefl _)
      · exact absurd time.plain special

end Reading

/-! ### What the calls leave -/

theorem key_gen_ne {first second : Int64} (apart : first ≠ second) : KEY_COMMENT_ID_GEN first ≠ KEY_COMMENT_ID_GEN second := by
  intro same
  exact apart (Logic.decimal_injective (List.append_cancel_left (List.append_cancel_right same)))

theorem key_sset_ne {first second : Int64} (apart : first ≠ second) : KEY_COMMENT_SSET first ≠ KEY_COMMENT_SSET second := by
  intro same
  exact apart (Logic.decimal_injective (List.append_cancel_left (List.append_cancel_right same)))

/-- A member with a higher score than the others. -/
theorem ZADD_last {entries : SortedSet} {score : Int64} {member : List UInt8}
    (last : ∀ entry ∈ entries, entry.1 < score ∧ entry.2 ≠ member) :
    Redis.ZADD entries score member = entries ++ [(score,member)] := by
  have others : (entries.filter fun entry => entry.2 ≠ member) = entries := by
    apply List.filter_eq_self.mpr
    intro entry listed
    exact decide_eq_true (last entry listed).2
  have ahead : ∀ entry ∈ entries, decide (entry.1 < score ∨ (entry.1 = score ∧ entry.2 < member)) = true := by
    intro entry listed
    exact decide_eq_true (.inl (last entry listed).1)
  rw [Redis.ZADD,others,place,List.takeWhile_eq_self_iff.mpr ahead,List.dropWhile_eq_nil_iff.mpr ahead]

theorem numbered_injective {first second : Nat} {one two : List Field} (same : numbered first one = numbered second two) :
    first = second := by
  have digits (n : Nat) (rest : List UInt8) : (decimalDigits n ++ 44::rest).takeWhile (· ≠ 44) = decimalDigits n := by
    rw [List.takeWhile_append_of_pos]
    · simp
    · intro c listed
      apply decide_eq_true
      rintro rfl
      exact absurd (digit_bounds 44 listed).1 (by decide)
  simp only [numbered,List.cons.injEq,true_and] at same
  have numbers := congrArg (fun text => Logic.denoted (text.takeWhile (· ≠ 44))) same
  simpa only [digits,Logic.denoted_decimalDigits] using numbers

def document (comment : Nat × Call) : List UInt8 :=
  numbered comment.1 (fields comment.2.uid (c_str comment.2.comment) (GetCurrntTimeFormat comment.2.local_))

def entry (comment : Nat × Call) : Int64 × List UInt8 := (Int64.ofNat comment.1,document comment)

theorem comments_append (songid : Int64) (calls : List Call) (call : Call) :
    comments songid (calls ++ [call]) =
      if call.songid = songid then comments songid calls ++ [((comments songid calls).length + 1,call)] else comments songid calls := by
  by_cases same : call.songid = songid
  · have kept : [call].filter (fun call => call.songid = songid) = [call] := by simp [same]
    rw [if_pos same,comments,List.filter_append,kept,List.mapIdx_concat]
    simp [comments]
  · have dropped : [call].filter (fun call => call.songid = songid) = [] := by simp [same]
    rw [if_neg same,comments,List.filter_append,dropped,List.append_nil,comments]

theorem id_le {songid : Int64} {calls : List Call} {comment : Nat × Call} (listed : comment ∈ comments songid calls) :
    comment.1 ≤ (comments songid calls).length := by
  obtain ⟨before,bound,rfl⟩ := List.mem_mapIdx.mp listed
  simp only [comments,List.length_mapIdx]
  omega

theorem comments_length_le (songid : Int64) (calls : List Call) : (comments songid calls).length ≤ calls.length := by
  rw [comments,List.length_mapIdx]
  exact List.length_filter_le _ _

theorem toInt_ofNat {n : Nat} (small : n ≤ 2 ^ 53) : (Int64.ofNat n).toInt = n := by
  rw [← Int64.ofInt_eq_ofNat,Int64.toInt_ofInt_of_le (by omega) (by omega)]

theorem SaveSongComment_eq {redis : Redis} {call : Call} {n : Nat} (small : n < 2 ^ 53)
    (counter : redis.counters (KEY_COMMENT_ID_GEN call.songid) = Int64.ofNat n) :
    SaveSongComment redis call =
      ⟨Function.update redis.counters (KEY_COMMENT_ID_GEN call.songid) (Int64.ofNat (n + 1)),
        Function.update redis.ssets (KEY_COMMENT_SSET call.songid)
          (Redis.ZADD (redis.ssets (KEY_COMMENT_SSET call.songid)) (Int64.ofNat (n + 1)) (document (n + 1,call)))⟩ := by
  have room : Int64.ofNat n ≠ Int64.maxValue := by
    intro same
    have numbers := congrArg Int64.toInt same
    rw [toInt_ofNat small.le] at numbers
    change (n : Int) = 2 ^ 63 - 1 at numbers
    omega
  have next : Int64.ofNat n + 1 = Int64.ofNat (n + 1) := by rw [Int64.ofNat_add]; rfl
  rw [SaveSongComment,Redis.RedisIncDecValue,counter,if_neg room,next]
  dsimp only
  rw [content_eq (n + 1) (toInt_ofNat small) call.uid call.comment (clean_time call.local_),document]

/-- The counter and the set of every song. -/
theorem saved (calls : List Call) (few : calls.length ≤ 2 ^ 53) (songid : Int64) :
    (calls.foldl SaveSongComment Init).counters (KEY_COMMENT_ID_GEN songid) = Int64.ofNat (comments songid calls).length ∧
      (calls.foldl SaveSongComment Init).ssets (KEY_COMMENT_SSET songid) = (comments songid calls).map entry := by
  induction calls using List.reverseRecOn generalizing songid with
  | nil => exact ⟨rfl,rfl⟩
  | append_singleton calls call ih =>
    rw [List.length_append,List.length_singleton] at few
    have before := ih (by omega)
    have small : (comments call.songid calls).length < 2 ^ 53 :=
      (comments_length_le call.songid calls).trans_lt (by omega)
    have last : ∀ other ∈ (comments call.songid calls).map entry,
        other.1 < Int64.ofNat ((comments call.songid calls).length + 1) ∧
          other.2 ≠ document ((comments call.songid calls).length + 1,call) := by
      intro other listed
      obtain ⟨comment,inside,rfl⟩ := List.mem_map.mp listed
      have bound := id_le inside
      constructor
      · rw [Int64.lt_iff_toInt_lt,entry,toInt_ofNat (by omega),toInt_ofNat (by omega)]
        omega
      · intro same
        have ids := numbered_injective same
        dsimp only at ids
        omega
    rw [List.foldl_append,List.foldl_cons,List.foldl_nil,SaveSongComment_eq small (before call.songid).1,
      (before call.songid).2,ZADD_last last,comments_append]
    dsimp only
    by_cases same : call.songid = songid
    · subst same
      rw [if_pos rfl,List.length_append,List.length_singleton,List.map_append,List.map_singleton,Function.update_self,
        Function.update_self]
      exact ⟨rfl,rfl⟩
    · rw [if_neg same,Function.update_of_ne (key_gen_ne (Ne.symm same)),Function.update_of_ne (key_sset_ne (Ne.symm same))]
      exact before songid

/-! ### The page -/

section Page
variable (songid : Int64) {from_id : Int64} {count : Int32} (from_nonneg : 0 ≤ from_id) (count_pos : 0 < count)
include from_nonneg count_pos

theorem ZREVRANGEBYSCORE_page (calls : List Call) :
    Redis.ZREVRANGEBYSCORE ((comments songid calls).map entry) from_id count.toInt64 =
      (page songid from_id count calls).map document := by
  have offset : ¬from_id < 0 := Int64.not_lt.mpr from_nonneg
  have limit : ¬count.toInt64 < 0 := by
    rw [Int64.lt_iff_toInt_lt,Int32.toInt_toInt64]
    rw [Int32.lt_iff_toInt_lt] at count_pos
    simp at count_pos ⊢
    omega
  rw [Redis.ZREVRANGEBYSCORE,if_neg offset,if_neg limit,Int32.toInt_toInt64,page,← List.map_reverse,← List.map_drop,
    List.map_map,← List.map_take]
  rfl

end Page

section Page
variable {codePointToUTF8 : Nat → List UInt8} (short : ∀ unicode, (codePointToUTF8 unicode).length ≤ 4)
  (sscanf : List UInt8 → Option Float)
include short

theorem shows_iff {listed : List (Nat × Call)} (small : ∀ comment ∈ listed, comment.1 < 2 ^ 63) :
    List.Forall₂ Shows ((listed.map document).filterMap (readDocument codePointToUTF8 sscanf)) listed ↔
      ∀ comment ∈ listed, Clean comment.2.comment := by
  induction listed with
  | nil => simp
  | cons comment rest ih =>
    obtain ⟨small,later⟩ := List.forall_mem_cons.mp small
    rw [List.forall_mem_cons,List.map_cons]
    cases parsed : readDocument codePointToUTF8 sscanf (document comment) with
    | none =>
      -- one item is missing
      rw [List.filterMap_cons_none parsed]
      apply iff_of_false
      · intro all
        have lengths := all.length_eq
        have bound := List.length_filterMap_le (readDocument codePointToUTF8 sscanf) (rest.map document)
        rw [List.length_map] at bound
        rw [List.length_cons] at lengths
        omega
      · rintro ⟨clean,-⟩
        obtain ⟨item,outcome,-⟩ := read_clean codePointToUTF8 sscanf comment.2.uid small clean (clean_time comment.2.local_)
        rw [document,c_str_nonzero clean.nonzero,outcome] at parsed
        cases parsed
    | some item =>
      rw [List.filterMap_cons_some parsed,List.forall₂_cons,ih later]
      apply and_congr_left
      intro _
      constructor
      · intro shows
        exact clean_of_member codePointToUTF8 sscanf comment.2.uid short small (clean_time comment.2.local_) parsed shows.2.2
      · intro clean
        obtain ⟨other,outcome,shows⟩ := read_clean codePointToUTF8 sscanf comment.2.uid small clean (clean_time comment.2.local_)
        rw [document,c_str_nonzero clean.nonzero,outcome] at parsed
        cases parsed
        exact shows

omit short in
/-- The total is always right. -/
theorem page_right_shows (calls : List Call) (few : calls.length ≤ 2 ^ 53) (songid from_id : Int64) (from_nonneg : 0 ≤ from_id)
    (count : Int32) (count_pos : 0 < count) : PageRight codePointToUTF8 sscanf calls songid from_id count ↔
      List.Forall₂ Shows (((page songid from_id count calls).map document).filterMap (readDocument codePointToUTF8 sscanf))
        (page songid from_id count calls) := by
  obtain ⟨-,entries⟩ := saved calls few songid
  have texts := ZREVRANGEBYSCORE_page songid from_nonneg count_pos calls
  rw [PageRight,ReadSongComment,entries,List.length_map,texts]
  by_cases none_ : (comments songid calls).length = 0
  · have empty : page songid from_id count calls = [] := by
      rw [page,List.length_eq_zero_iff.mp none_]
      simp
    rw [if_pos none_,empty]
    simpa using none_.symm
  · rw [if_neg none_]
    exact and_iff_right rfl

omit short in
theorem page_small (calls : List Call) (few : calls.length ≤ 2 ^ 53) (songid from_id : Int64) (count : Int32) :
    ∀ comment ∈ page songid from_id count calls, comment.1 < 2 ^ 63 := by
  intro comment listed
  have inside := id_le (List.mem_reverse.mp (List.mem_of_mem_drop (List.mem_of_mem_take listed)))
  have bound := comments_length_le songid calls
  omega

theorem page_right_iff (calls : List Call) (few : calls.length ≤ 2 ^ 53) (songid from_id : Int64) (from_nonneg : 0 ≤ from_id)
    (count : Int32) (count_pos : 0 < count) : PageRight codePointToUTF8 sscanf calls songid from_id count ↔
      ∀ comment ∈ page songid from_id count calls, Clean comment.2.comment :=
  (page_right_shows sscanf calls few songid from_id from_nonneg count count_pos).trans
    (shows_iff short sscanf (page_small calls few songid from_id count))

end Page

def first : Call := ⟨7,1,ascii "nice",⟨113,4,5,10,11,12⟩⟩

theorem page_right_first : PageRight Logic.WriteUTF8 (fun _ => none) [first] 7 0 10 := by
  apply (page_right_iff Public.length_WriteUTF8 (fun _ => none) [first] (by decide) 7 0 (by decide) 10 (by decide)).mpr
  intro comment listed
  rw [show page 7 0 10 [first] = [(1,first)] from rfl,List.mem_singleton] at listed
  subst listed
  exact Clean.of_all rfl

/-- A comment that is a quotation mark. -/
theorem not_page_right : ¬∀ (calls : List Call) (songid from_id : Int64) (count : Int32), calls.length ≤ 2 ^ 53 → 0 ≤ from_id →
    0 < count → PageRight Logic.WriteUTF8 (fun _ => none) calls songid from_id count := by
  intro right
  let quote : Call := {first with comment := [34]}
  have shows := (page_right_shows (fun _ => none) [quote] (by decide) 7 0 (by decide) 10 (by decide)).mp
    (right [quote] 7 0 10 (by decide) (by decide) (by decide))
  have clean := (shows_iff Public.length_WriteUTF8 (fun _ => none) (page_small [quote] (by decide) 7 0 10)).mp shows
  exact ((clean (1,quote) (List.mem_singleton.mpr rfl)).plain 34 (List.mem_singleton.mpr rfl)).1 rfl

end Migfm.Sociality.Comments
