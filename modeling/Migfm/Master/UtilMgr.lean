import Migfm.Library.LeastUsed
import Migfm.Music.Base64
import Migfm.Public.JsonRoundTrip

/-! master/robot/util_mgr.cc: the tokens that robots post with, of which the one that was used least is given, and the
mail that they send. Requests come one at a time. -/
namespace Migfm.Master.UtilMgr
open Public.Json
open Library.LeastUsed
open Library.SortedMap (entries)
open Logic (ascii)
open Music.Base64 (Base64Encode Base64Encode_short base64_encode base64_encode_nonzero decode_base64_encode)
open Music.TypeSongs (Base64Decode)

/-! ### Replies -/

section Replies
variable (tool : Tool)

/-- The response of a request of master/robot. -/
def reply (status : Int64) (msg : List UInt8) (content : Value) : List UInt8 := FastWriter.write tool false (.object [
  (ascii "msg",.string msg),
  (ascii "result",content),
  (ascii "status",.int status)])

variable {tool}

/-- The client can parse a response, and reads the content in it. -/
theorem reply_read (documented : tool.Documented) {status : Int64} (small : status ≤ 0x7fffffff) {msg : List UInt8} (clean : 0 ∉ msg)
    {content : Value} (prints : tool.Prints content) :
    ∃ value, readDocument tool.codePointToUTF8 tool.sscanf (reply tool status msg content) = some value ∧
      value.held = .object [
        (ascii "msg",.string msg),
        (ascii "result",(tool.asRead content).held),
        (ascii "status",.int status)] := by
  have all : tool.Prints (.object [(ascii "msg",.string msg),(ascii "result",content),(ascii "status",.int status)]) := by
    apply prints_object
    intro member among
    simp only [List.mem_cons,List.not_mem_nil,or_false] at among
    rcases among with rfl | rfl | rfl
    · exact prints_leaf (fun x => Value.noConfusion) trivial
    · exact prints
    · exact prints_leaf (fun x => Value.noConfusion) trivial
  have text : (Value.string msg).held = .string msg := congrArg Value.string (c_str_nonzero clean)
  have number : tool.kind (.int status) = .int status := if_pos small
  refine ⟨_,readDocument_write documented false all,?_⟩
  rw [held_back,asRead_object,held_object]
  change Value.object [(ascii "msg",(Value.string msg).held),(ascii "result",(tool.asRead content).held),
    (ascii "status",(tool.kind (.int status)).held)] = _
  rw [text,number]
  rfl

theorem prints_strings {members : List (List UInt8 × Value)} (each : ∀ member ∈ members, ∃ value, member.2 = .string value) :
    tool.Prints (.object members) := by
  apply prints_object
  intro member listed
  obtain ⟨value,same⟩ := each member listed
  rw [same]
  exact prints_leaf (fun x => Value.noConfusion) trivial

/-- An object of C strings, in the order of their names, is read as it is. -/
theorem strings_read {members : List (List UInt8 × Value)} (each : ∀ member ∈ members, ∃ value, member.2 = .string value ∧ 0 ∉ value)
    (ordered : entries (keyed members) = members) : tool.Prints (.object members) ∧ (tool.asRead (.object members)).held = .object members := by
  constructor
  · apply prints_strings
    intro member listed
    obtain ⟨value,same,_⟩ := each member listed
    exact ⟨value,same⟩
  · have kept : ∀ member ∈ members, (member.1,(tool.asRead member.2).held) = member := by
      intro member listed
      obtain ⟨value,same,clean⟩ := each member listed
      have second : (tool.asRead member.2).held = member.2 := by
        rw [same]
        exact congrArg Value.string (c_str_nonzero clean)
      rw [second]
    rw [asRead_object,held_object,List.map_map]
    change Value.object (entries (keyed (members.map fun member => (member.1,(tool.asRead member.2).held)))) = _
    rw [List.map_congr_left kept,List.map_id',ordered]

end Replies

/-! ### Tokens -/

structure SINAWBAccessToken where
  appkey_ : List UInt8
  appsecret_ : List UInt8
  callback_ : List UInt8
  access_token_ : List UInt8
  count_ : Int64

def SINAWBAccessToken.add_count (token : SINAWBAccessToken) : SINAWBAccessToken := { token with count_ := token.count_ + 1 }

def SINAWBAccessToken.cmp (t_access_token r_access_token : SINAWBAccessToken) : Bool := t_access_token.count_ < r_access_token.count_

/-- A row of `proc_GetSINAWBAccessToken`. -/
structure Row where
  appkey : List UInt8
  appsecret : List UInt8
  callback : List UInt8
  access_token : List UInt8

def Row.token (row : Row) : SINAWBAccessToken := ⟨c_str row.appkey,c_str row.appsecret,c_str row.callback,c_str row.access_token,0⟩

/-- Without rows the list stays empty. -/
def DBComm.GetSinaWbToken (rows : List Row) : List SINAWBAccessToken := rows.map Row.token

/-- The sort keeps the order of equals. -/
def sort (access_token_list_ : List SINAWBAccessToken) : List SINAWBAccessToken :=
  access_token_list_.insertionSort fun token other => ¬SINAWBAccessToken.cmp other token

def SINAWBAccessToken.content (token : SINAWBAccessToken) : Value := .object [
  (ascii "access_token",.string token.access_token_),
  (ascii "appkey",.string token.appkey_),
  (ascii "appsecret",.string token.appsecret_),
  (ascii "callback",.string token.callback_)]

/-- What is sent, and the list after it. -/
def GetIdleSINAWBtoken (tool : Tool) : List SINAWBAccessToken → List UInt8 × List SINAWBAccessToken
  | [] => (reply tool 0 "无内容".toUTF8.toList .null,[])
  | access_token::rest => (reply tool 1 [] access_token.content,sort (access_token.add_count::rest))

theorem iterate_add_count (token : SINAWBAccessToken) (m : Nat) :
    SINAWBAccessToken.add_count^[m] token = { token with count_ := token.count_ + Int64.ofNat m } := by
  induction m with
  | zero =>
    have nothing : token.count_ + Int64.ofNat 0 = token.count_ := Int64.add_zero token.count_
    rw [nothing]
    rfl
  | succ m ih =>
    rw [Function.iterate_succ_apply',ih,SINAWBAccessToken.add_count,Int64.ofNat_add,← Int64.add_assoc]
    rfl

/-- In the list that the database gives, nobody was used. -/
theorem count_uses {rows : List Row} {token : SINAWBAccessToken} (member : token ∈ DBComm.GetSinaWbToken rows) {m : Nat} (small : m < 2 ^ 63) :
    (SINAWBAccessToken.add_count^[m] token).count_.toInt = m := by
  obtain ⟨row,_,rfl⟩ := List.mem_map.mp member
  rw [iterate_add_count]
  change (0 + Int64.ofNat m).toInt = m
  rw [Int64.zero_add,Int64.toInt_ofNat_of_lt small]

/-- The sort compares how often the tokens were used. -/
theorem counts_uses (rows : List Row) {most : Nat} (small : most < 2 ^ 63) :
    Counts SINAWBAccessToken.add_count (fun token other => ¬SINAWBAccessToken.cmp other token) (DBComm.GetSinaWbToken rows) most := by
  intro token member other member' m bounded n bounded'
  change ¬SINAWBAccessToken.cmp (SINAWBAccessToken.add_count^[n] other) (SINAWBAccessToken.add_count^[m] token) = true ↔ m ≤ n
  rw [SINAWBAccessToken.cmp,decide_eq_true_iff,Int64.lt_iff_toInt_lt,count_uses member (bounded.trans_lt small),
    count_uses member' (bounded'.trans_lt small)]
  omega

/-- The list after so many requests. -/
def list (tool : Tool) (rows : List Row) (n : Nat) : List SINAWBAccessToken :=
  (fun access_token_list_ => (GetIdleSINAWBtoken tool access_token_list_).2)^[n] (DBComm.GetSinaWbToken rows)

theorem list_after (tool : Tool) {rows : List Row} (some_ : rows ≠ []) {n : Nat} (bounded : n < 2 ^ 63) :
    list tool rows n = after SINAWBAccessToken.add_count (DBComm.GetSinaWbToken rows) n := by
  have steps : (fun access_token_list_ => (GetIdleSINAWBtoken tool access_token_list_).2) =
      step SINAWBAccessToken.add_count fun token other => ¬SINAWBAccessToken.cmp other token := by
    funext access_token_list_
    cases access_token_list_ <;> rfl
  have tokens : DBComm.GetSinaWbToken rows ≠ [] := fun none_ => some_ (List.map_eq_nil_iff.mp none_)
  rw [list,steps,iterate_step (counts_uses rows bounded) tokens le_rfl]

section Turns
variable {tool : Tool}

theorem content_read {token : SINAWBAccessToken}
    (clean : 0 ∉ token.access_token_ ∧ 0 ∉ token.appkey_ ∧ 0 ∉ token.appsecret_ ∧ 0 ∉ token.callback_) :
    tool.Prints token.content ∧ (tool.asRead token.content).held = token.content := by
  refine strings_read ?_ rfl
  intro member among
  simp only [List.mem_cons,List.not_mem_nil,or_false] at among
  rcases among with rfl | rfl | rfl | rfl
  · exact ⟨_,rfl,clean.1⟩
  · exact ⟨_,rfl,clean.2.1⟩
  · exact ⟨_,rfl,clean.2.2.1⟩
  · exact ⟨_,rfl,clean.2.2.2⟩

/-- The token whose turn it is, and how often each was given before. -/
theorem GetIdleSINAWBtoken_turn (documented : tool.Documented) {rows : List Row} (some_ : rows ≠ []) {n : Nat} (bounded : n + 1 < 2 ^ 63) :
    ∃ token value, (order (DBComm.GetSinaWbToken rows) (n / rows.length))[n % rows.length]? = some token ∧
      readDocument tool.codePointToUTF8 tool.sscanf (GetIdleSINAWBtoken tool (list tool rows n)).1 = some value ∧
      value.held = .object [
        (ascii "msg",.string []),
        (ascii "result",token.content),
        (ascii "status",.int 1)] ∧
      ∀ other ∈ list tool rows n, other.count_.toInt = n / rows.length ∨ other.count_.toInt = n / rows.length + 1 := by
  have size : (DBComm.GetSinaWbToken rows).length = rows.length := List.length_map ..
  have inside : n % rows.length < rows.length := Nat.mod_lt n (List.length_pos_of_ne_nil some_)
  have within : n % rows.length < (order (DBComm.GetSinaWbToken rows) (n / rows.length)).length := by rwa [length_order,size]
  have state := list_after tool some_ (Nat.lt_of_succ_lt bounded)
  have front := @head_middle _ SINAWBAccessToken.add_count (DBComm.GetSinaWbToken rows) (n / rows.length) (n % rows.length) (by rwa [size])
  rw [after,size] at state
  rw [← state,List.getElem?_eq_getElem within,Option.map_some] at front
  generalize turn : (order (DBComm.GetSinaWbToken rows) (n / rows.length))[n % rows.length] = token at front
  have member : token ∈ DBComm.GetSinaWbToken rows := turn ▸ mem_order.mp (List.getElem_mem within)
  obtain ⟨row,_,made⟩ := List.mem_map.mp member
  have clean : 0 ∉ token.access_token_ ∧ 0 ∉ token.appkey_ ∧ 0 ∉ token.appsecret_ ∧ 0 ∉ token.callback_ := by
    rw [← made]
    exact ⟨c_str_zero _,c_str_zero _,c_str_zero _,c_str_zero _⟩
  obtain ⟨rest,first⟩ := List.head?_eq_some_iff.mp front
  have sent : (GetIdleSINAWBtoken tool (list tool rows n)).1 = reply tool 1 [] token.content := by
    rw [first,iterate_add_count]
    rfl
  obtain ⟨prints,kept⟩ := @content_read tool token clean
  obtain ⟨value,read,holds⟩ := reply_read documented (show (1 : Int64) ≤ 0x7fffffff by decide) List.not_mem_nil prints
  refine ⟨token,value,?_,?_,?_,?_⟩
  · rw [List.getElem?_eq_getElem within,turn]
  · rw [sent,read]
  · rw [holds,kept]
  · intro other listed
    have few := Nat.div_le_self n rows.length
    rw [state] at listed
    obtain ⟨used,given,rfl | rfl⟩ := mem_middle SINAWBAccessToken.add_count listed
    · rw [count_uses given (by omega)]
      exact .inl rfl
    · rw [count_uses given (by omega)]
      exact .inr rfl

end Turns

def testRows : List Row := [⟨ascii "k1",ascii "s1",ascii "c",ascii "t1"⟩,⟨ascii "k2",ascii "s2",ascii "c",ascii "t2"⟩]

/-- The second token is given twice in a row. -/
theorem second_twice : ∃ value value',
    readDocument noteTool.codePointToUTF8 noteTool.sscanf (GetIdleSINAWBtoken noteTool (list noteTool testRows 1)).1 = some value ∧
      readDocument noteTool.codePointToUTF8 noteTool.sscanf (GetIdleSINAWBtoken noteTool (list noteTool testRows 2)).1 = some value' ∧
      value.held = value'.held ∧
      value.held = .object [
        (ascii "msg",.string []),
        (ascii "result",(⟨ascii "k2",ascii "s2",ascii "c",ascii "t2",0⟩ : SINAWBAccessToken).content),
        (ascii "status",.int 1)] := by
  have some_ : testRows ≠ [] := List.cons_ne_nil _ _
  obtain ⟨token,value,turn,read,holds,_⟩ := @GetIdleSINAWBtoken_turn noteTool noteTool_documented testRows some_ 1 (by decide)
  obtain ⟨token',value',turn',read',holds',_⟩ := @GetIdleSINAWBtoken_turn noteTool noteTool_documented testRows some_ 2 (by decide)
  cases turn
  cases turn'
  exact ⟨value,value',read,read',holds.trans holds'.symm,holds⟩

/-! ### The mail -/

/-- Of several rows the last counts. -/
def DBComm.GetSpreadMail (rows : List (List UInt8 × List UInt8)) : Option (List UInt8 × List UInt8) :=
  rows.getLast?.map fun row => (c_str row.1,c_str row.2)

def mail (b64title b64mailcontent : List UInt8) : Value := .object [
  (ascii "content",.string b64mailcontent),
  (ascii "title",.string b64title)]

/-- What is sent. No outcome: a text is too long for the encoder. -/
def GetSpreadMail (tool : Tool) (rows : List (List UInt8 × List UInt8)) : Option (List UInt8) :=
  match DBComm.GetSpreadMail rows with
  | none => some (reply tool 0 "无内容".toUTF8.toList .null)
  | some (title,mailcontent) => do
    let b64title ← Base64Encode title
    let b64mailcontent ← Base64Encode mailcontent
    return reply tool 1 [] (mail b64title b64mailcontent)

/-- Who decodes the title and the content of the response has the mail of the database. -/
theorem GetSpreadMail_decoded {tool : Tool} (documented : tool.Documented) {rows : List (List UInt8 × List UInt8)} {title mailcontent : List UInt8}
    (mailed : DBComm.GetSpreadMail rows = some (title,mailcontent)) (short : title.length < 2 ^ 31 ∧ mailcontent.length < 2 ^ 31) :
    ∃ response value b64title b64mailcontent, GetSpreadMail tool rows = some response ∧
      readDocument tool.codePointToUTF8 tool.sscanf response = some value ∧
      value.held = .object [
        (ascii "msg",.string []),
        (ascii "result",mail b64title b64mailcontent),
        (ascii "status",.int 1)] ∧
      Base64Decode b64title = title ∧ Base64Decode b64mailcontent = mailcontent := by
  have strings : tool.Prints (mail (base64_encode title) (base64_encode mailcontent)) ∧
      (tool.asRead (mail (base64_encode title) (base64_encode mailcontent))).held = mail (base64_encode title) (base64_encode mailcontent) := by
    refine strings_read ?_ rfl
    intro member among
    simp only [List.mem_cons,List.not_mem_nil,or_false] at among
    rcases among with rfl | rfl
    · exact ⟨_,rfl,base64_encode_nonzero mailcontent⟩
    · exact ⟨_,rfl,base64_encode_nonzero title⟩
  obtain ⟨value,read,holds⟩ := reply_read documented (show (1 : Int64) ≤ 0x7fffffff by decide) List.not_mem_nil strings.1
  refine ⟨_,value,base64_encode title,base64_encode mailcontent,?_,read,?_,decode_base64_encode title,decode_base64_encode mailcontent⟩
  · rw [GetSpreadMail,mailed]
    simp only [Base64Encode_short short.1,Base64Encode_short short.2]
    rfl
  · rw [holds,strings.2]

theorem hi_decoded : ∃ response value b64title b64mailcontent, GetSpreadMail noteTool [(ascii "Hi",ascii "there\n")] = some response ∧
    readDocument noteTool.codePointToUTF8 noteTool.sscanf response = some value ∧
    value.held = .object [
      (ascii "msg",.string []),
      (ascii "result",mail b64title b64mailcontent),
      (ascii "status",.int 1)] ∧
    Base64Decode b64title = ascii "Hi" ∧ Base64Decode b64mailcontent = ascii "there\n" :=
  GetSpreadMail_decoded noteTool_documented rfl (by decide)

end Migfm.Master.UtilMgr
