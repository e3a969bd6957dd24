import Migfm.Recv.Decoding

/-! The accessors of the request classes with their parameters, and the forms they decode. -/
namespace Migfm.Recv
open Logic Public Logic.HttpValueSerializer

/-! ### Heads -/

section Heads
variable {Object : Type} {Init : (String → Int64) → ValueMap Value → Object}

def headAccessors (packet : Object → HeadPacket) : List (Accessor Object) :=
  [intField "type" true fun object => (packet object).type_,
    textField "remote_addr" false .plain fun object => (packet object).remote_addr_,
    intField "login_machine" false fun object => (packet object).login_machine]

def loginAccessors (packet : Object → LoginHeadPacket) : List (Accessor Object) :=
  headAccessors (fun object => (packet object).toHeadPacket) ++
    [bigField "uid" true fun object => (packet object).uid_,
      textField "token" true .plain fun object => (packet object).token_]

theorem headAccessors_exact {packet : Object → HeadPacket}
    (same : ∀ rubbish m_, ∃ error_code_, packet (Init rubbish m_) = { HeadPacket.Reset rubbish m_ with error_code_ }) :
    ∀ accessor ∈ headAccessors packet, Exact Init accessor := by
  have fields (rubbish : String → Int64) (m_ : ValueMap Value) :
      (packet (Init rubbish m_)).type_ = ((GetBigInteger m_ "type").getD (rubbish "type")).toInt32 ∧
      (packet (Init rubbish m_)).remote_addr_ = (GetString m_ "remote_addr").getD [] ∧
      (packet (Init rubbish m_)).login_machine = ((GetBigInteger m_ "login_machine").getD (rubbish "login_machine")).toInt32 := by
    obtain ⟨error_code_,here⟩ := same rubbish m_
    rw [here]
    exact ⟨rfl,rfl,rfl⟩
  simp only [headAccessors,List.forall_mem_cons,List.not_mem_nil,false_imp_iff,implies_true,and_true]
  exact ⟨intField_exact fun rubbish m_ => (fields rubbish m_).1,plainField_exact fun rubbish m_ => (fields rubbish m_).2.1,
    intField_exact fun rubbish m_ => (fields rubbish m_).2.2⟩

theorem loginAccessors_exact {packet : Object → LoginHeadPacket}
    (same : ∀ rubbish m_, ∃ error_code_, packet (Init rubbish m_) = { LoginHeadPacket.Init rubbish m_ with error_code_ }) :
    ∀ accessor ∈ loginAccessors packet, Exact Init accessor := by
  have fields (rubbish : String → Int64) (m_ : ValueMap Value) :
      (packet (Init rubbish m_)).uid_ = (GetBigInteger m_ "uid").getD (rubbish "uid") ∧
      (packet (Init rubbish m_)).token_ = (GetString m_ "token").getD [] ∧
      ∃ error_code_, (packet (Init rubbish m_)).toHeadPacket = { HeadPacket.Reset rubbish m_ with error_code_ } := by
    obtain ⟨error_code_,here⟩ := same rubbish m_
    rw [here]
    exact ⟨rfl,rfl,error_code_,rfl⟩
  rw [loginAccessors,List.forall_mem_append]
  refine ⟨headAccessors_exact fun rubbish m_ => (fields rubbish m_).2.2,?_⟩
  simp only [List.forall_mem_cons,List.not_mem_nil,false_imp_iff,implies_true,and_true]
  exact ⟨bigField_exact (fun rubbish m_ => (fields rubbish m_).1) (by decide),plainField_exact fun rubbish m_ => (fields rubbish m_).2.1⟩

theorem headAccessors_got (packet : Object → HeadPacket) (rubbish : String → Int64) (m_ : ValueMap Value) :
    (∀ accessor ∈ headAccessors packet, accessor.needed = true → accessor.kind.got m_ accessor.parameters = true) ↔
      (HeadPacket.Reset rubbish m_).error_code_ = 0 := by
  simp [headAccessors,intField,textField,Kind.got,HeadPacket.Reset]

theorem loginAccessors_got (packet : Object → LoginHeadPacket) (rubbish : String → Int64) (m_ : ValueMap Value) :
    (∀ accessor ∈ loginAccessors packet, accessor.needed = true → accessor.kind.got m_ accessor.parameters = true) ↔
      (LoginHeadPacket.Init rubbish m_).error_code_ = 0 := by
  rw [loginAccessors,List.forall_mem_append,headAccessors_got _ rubbish]
  simp only [bigField,textField,Kind.got,LoginHeadPacket.Init,lack_zero,List.forall_mem_cons,List.findSome?_singleton,
    List.not_mem_nil,false_imp_iff,implies_true,and_true,true_imp_iff,and_assoc]

/-- A request of a user that is logged in, with the fields of its own. -/
theorem login_regular {packet : Object → LoginHeadPacket} {fields : List (Accessor Object)}
    (same : ∀ rubbish m_, ∃ error_code_, packet (Init rubbish m_) = { LoginHeadPacket.Init rubbish m_ with error_code_ })
    (exact : ∀ accessor ∈ fields, Exact Init accessor) (ascii : ∀ accessor ∈ fields, ∀ name ∈ accessor.parameters, Ascii name)
    (asked : ∀ accessor ∈ fields, accessor.needed = true → accessor.Asked)
    (zero : ∀ rubbish m_, (packet (Init rubbish m_)).GetResult = 0 ↔ (LoginHeadPacket.Init rubbish m_).error_code_ = 0 ∧
      ∀ accessor ∈ fields, accessor.needed = true → accessor.kind.got m_ accessor.parameters = true) :
    Regular ⟨Object,Init,fun object => (packet object).GetResult,loginAccessors packet ++ fields⟩ where
  exact := List.forall_mem_append.mpr ⟨loginAccessors_exact same,exact⟩
  ascii := by
    refine List.forall_mem_append.mpr ⟨?_,ascii⟩
    simp only [loginAccessors,headAccessors,intField,bigField,textField,List.forall_mem_append,List.forall_mem_cons,
      List.not_mem_nil,false_imp_iff,implies_true,and_true]
    decide
  asked := by
    refine List.forall_mem_append.mpr ⟨?_,asked⟩
    simp [loginAccessors,headAccessors,intField,bigField,textField,Accessor.Asked]
  zero rubbish m_ := by rw [zero,List.forall_mem_append,loginAccessors_got _ rubbish]

end Heads

/-- Nothing is read in place of a text that is not there. -/
theorem empty_head {bytes : List UInt8} (empty : bytes = []) : ∀ byte, bytes.head? = some byte → 128 ≤ byte.toNat := by
  subst empty
  intro byte head
  cases head

/-! ### Music -/

def DelCollect.request : Request where
  Object := DelCollect
  Init := DelCollect.Init
  GetResult object := object.GetResult
  accessors := loginAccessors DelCollect.toLoginHeadPacket ++ [bigField "songid" true DelCollect.songid_]

theorem DelCollect.regular : Regular DelCollect.request := by
  apply login_regular (fun _ _ => ⟨_,rfl⟩) _ (by decide) (by decide)
  · intro rubbish m_
    simp [HeadPacket.GetResult,Init,bigField,Kind.got]
  · simp only [List.forall_mem_cons,List.not_mem_nil,false_imp_iff,implies_true,and_true]
    exact bigField_exact (fun _ _ => rfl) (by decide)

/-- The dimension has two names for its number and two for its alias. -/
def SetCollect.request : Request where
  Object := SetCollect
  Init := SetCollect.Init
  GetResult object := object.GetResult
  accessors := loginAccessors SetCollect.toLoginHeadPacket ++
    [bigField "songid" true SetCollect.songid_,
      ⟨["typeid","sid"],true,.big,fun object => .number object.dimemsion_id_.toInt⟩,
      ⟨["modetype","dimension"],true,.plain,fun object => .text object.dimension_alais_⟩]

theorem either {α : Type} (get : String → Option α) (first second : String) :
    [first,second].findSome? get = if (get first).isSome then get first else get second := by
  rw [List.findSome?_cons]
  cases get first with
  | none => exact List.findSome?_singleton
  | some x => rfl

theorem SetCollect.regular : Regular SetCollect.request := by
  apply login_regular (fun _ _ => ⟨_,rfl⟩) _ (by decide) (by decide)
  · intro rubbish m_
    simp [HeadPacket.GetResult,Init,bigField,Kind.got,either,and_assoc]
  · simp only [List.forall_mem_cons,List.not_mem_nil,false_imp_iff,implies_true,and_true]
    refine ⟨bigField_exact (fun _ _ => rfl) (by decide),@big_exact _ _ _ _ _ (fun rubbish => rubbish "sid") ?_ (by decide),plain_exact ?_⟩
    · intro rubbish m_
      rw [either]
      rfl
    · intro rubbish m_
      rw [either]
      rfl

def Dimension.request : Request where
  Object := Dimension
  Init := Dimension.Init
  GetResult object := object.GetResult
  accessors := loginAccessors Dimension.toLoginHeadPacket ++
    [bigField "sid" true Dimension.dimension_sub_id_,
      textField "dimension" true .plain Dimension.dimension_name_]

theorem Dimension.regular : Regular Dimension.request := by
  apply login_regular (fun _ _ => ⟨_,rfl⟩) _ (by decide) (by decide)
  · intro rubbish m_
    simp [HeadPacket.GetResult,Init,bigField,textField,Kind.got,and_assoc]
  · simp only [List.forall_mem_cons,List.not_mem_nil,false_imp_iff,implies_true,and_true]
    exact ⟨bigField_exact (fun _ _ => rfl) (by decide),plainField_exact fun _ _ => rfl⟩

def Dimensions.request : Request where
  Object := Dimensions
  Init := Dimensions.Init
  GetResult object := object.GetResult
  accessors := loginAccessors Dimensions.toLoginHeadPacket ++
    [bigField "typeid" true fun object => object.type_dimension_.dimension_id_,
      bigField "moodid" true fun object => object.mood_dimension_.dimension_id_,
      bigField "sceneid" true fun object => object.scens_dimension_.dimension_id_,
      bigField "channelid" true fun object => object.channel_dimension_.dimension_id_,
      bigField "typeindex" true fun object => object.type_dimension_.dimension_index_,
      bigField "channelindex" true fun object => object.channel_dimension_.dimension_index_,
      bigField "moodindex" true fun object => object.mood_dimension_.dimension_index_,
      bigField "sceneindex" true fun object => object.scens_dimension_.dimension_index_,
      bigField "num" false Dimensions.num_]

theorem Dimensions.regular : Regular Dimensions.request := by
  apply login_regular (fun _ _ => ⟨_,rfl⟩) _ (by decide) (by decide)
  · intro rubbish m_
    simp [HeadPacket.GetResult,Init,bigField,Kind.got,and_assoc]
  · -- a unit keeps -1, the number of songs is 5
    have unit {name : String} {get : Dimensions → Int64} (reads : ∀ rubbish m_, get (Init rubbish m_) = (GetBigInteger m_ name).getD (-1)) :
        Exact Init (bigField name true get) := bigField_exact reads (by decide)
    simp only [List.forall_mem_cons,List.not_mem_nil,false_imp_iff,implies_true,and_true]
    exact ⟨unit fun _ _ => rfl,unit fun _ _ => rfl,unit fun _ _ => rfl,unit fun _ _ => rfl,unit fun _ _ => rfl,unit fun _ _ => rfl,
      unit fun _ _ => rfl,unit fun _ _ => rfl,@bigField_exact _ _ _ _ _ (fun _ => 5) (fun _ _ => rfl) (by decide)⟩

def RecordMusic.request : Request where
  Object := RecordMusic
  Init := RecordMusic.Init
  GetResult object := object.GetResult
  accessors := loginAccessors RecordMusic.toLoginHeadPacket ++
    [bigField "cursong" true RecordMusic.current_song_id_,
      bigField "typeid" true RecordMusic.dimension_sub_id_,
      textField "mode" true .decoded RecordMusic.dimension_name_,
      bigField "lastsong" false RecordMusic.last_song_id_,
      bigField "state" false RecordMusic.state_,
      textField "singer" false .decoded RecordMusic.singer_,
      textField "song" false .song RecordMusic.name_]

theorem RecordMusic.regular : Regular RecordMusic.request := by
  apply login_regular (fun _ _ => ⟨_,rfl⟩) _ (by decide) (by decide)
  · intro rubbish m_
    simp [HeadPacket.GetResult,Init,bigField,textField,Kind.got,and_assoc]
  · simp only [List.forall_mem_cons,List.not_mem_nil,false_imp_iff,implies_true,and_true]
    refine ⟨bigField_exact (fun _ _ => rfl) (by decide),bigField_exact (fun _ _ => rfl) (by decide),decodedField_exact (fun _ _ => rfl) (empty_head rfl),
      @bigField_exact _ _ _ _ _ (fun _ => 0) (fun _ _ => rfl) (by decide),@bigField_exact _ _ _ _ _ (fun _ => 0) (fun _ _ => rfl) (by decide),
      decodedField_exact (fun _ _ => rfl) ?_,songField_exact (fun _ _ => rfl) ?_⟩
    · intro byte head
      have first : (utf8 "佚名".toList).head? = some 0xe4 := by decide
      cases first.symm.trans head
      decide
    · intro byte head
      have first : (utf8 "未知".toList).head? = some 0xe6 := by decide
      cases first.symm.trans head
      decide

/-! ### Users -/

def UpdateUserInfo.request : Request where
  Object := UpdateUserInfo
  Init := UpdateUserInfo.Init
  GetResult object := object.GetResult
  accessors := loginAccessors UpdateUserInfo.toLoginHeadPacket ++
    [bigField "gender" false UpdateUserInfo.gender_,
      textField "nickname" true .nickname UpdateUserInfo.nickname_,
      textField "birthday" true .plain UpdateUserInfo.birthday_]

theorem UpdateUserInfo.regular : Regular UpdateUserInfo.request := by
  apply login_regular (fun _ _ => ⟨_,rfl⟩) _ (by decide) (by decide)
  · intro rubbish m_
    simp [HeadPacket.GetResult,Init,bigField,textField,Kind.got,and_assoc]
  · simp only [List.forall_mem_cons,List.not_mem_nil,false_imp_iff,implies_true,and_true]
    exact ⟨@bigField_exact _ _ _ _ _ (fun _ => 0) (fun _ _ => rfl) (by decide),nicknameField_exact fun _ _ => rfl,
      plainField_exact fun _ _ => rfl⟩

def BDBindPush.request : Request where
  Object := BDBindPush
  Init := BDBindPush.Init
  GetResult object := object.GetResult
  accessors := headAccessors BDBindPush.toHeadPacket ++
    [bigField "platform" true BDBindPush.platform_,
      bigField "uid" true BDBindPush.uid_,
      textField "token" true .plain BDBindPush.token_,
      bigField "channel" true BDBindPush.channel_,
      bigField "userid" true BDBindPush.bduserid_,
      textField "pkg_name" true .plain BDBindPush.pkg_name_,
      textField "tag" true .plain BDBindPush.tag_,
      intField "machine" true BDBindPush.machine_,
      bigField "appid" true BDBindPush.appid_,
      bigField "requestid" true BDBindPush.requestid_]

theorem BDBindPush.regular : Regular BDBindPush.request where
  exact := by
    have zero {name : String} {get : BDBindPush → Int64} (reads : ∀ rubbish m_, get (Init rubbish m_) = (GetBigInteger m_ name).getD 0) :
        Exact Init (bigField name true get) := bigField_exact reads (by decide)
    rw [request,List.forall_mem_append]
    refine ⟨headAccessors_exact fun _ _ => ⟨_,rfl⟩,?_⟩
    simp only [List.forall_mem_cons,List.not_mem_nil,false_imp_iff,implies_true,and_true]
    exact ⟨zero fun _ _ => rfl,zero fun _ _ => rfl,plainField_exact fun _ _ => rfl,zero fun _ _ => rfl,zero fun _ _ => rfl,
      plainField_exact fun _ _ => rfl,plainField_exact fun _ _ => rfl,intField_exact fun _ _ => rfl,
      bigField_exact (fun _ _ => rfl) (by decide),bigField_exact (fun _ _ => rfl) (by decide)⟩
  ascii := by decide
  asked := by decide
  zero rubbish m_ := by
    rw [request,List.forall_mem_append,headAccessors_got _ rubbish]
    simp only [HeadPacket.GetResult,Init,LoginHeadPacket.Init,bigField,intField,textField,Kind.got,lack_zero,List.forall_mem_cons,
      List.findSome?_singleton,List.not_mem_nil,false_imp_iff,implies_true,and_true,true_imp_iff,and_assoc]
    -- the user and the token are asked for twice
    apply and_congr_right'
    constructor
    · rintro ⟨-,-,fields⟩
      exact fields
    · rintro ⟨platform,uid,token,fields⟩
      exact ⟨uid,token,platform,uid,token,fields⟩

namespace ThirdLogin

/-- The session, and the member of the union that the source is for. -/
def sessionAccessors : List (Accessor ThirdLogin) :=
  [⟨["session"],true,.session,fun object => .text object.session_⟩,
    ⟨["session"],false,.union,fun object => match object.union_ with
      | .wb_session_ value => .number value.toInt
      | _ => .unset⟩,
    ⟨["session"],false,.union,fun object => match object.union_ with
      | .wx_session_ text => .text text
      | _ => .unset⟩,
    ⟨["session"],false,.union,fun object => match object.union_ with
      | .qq_session_ text => .text text
      | _ => .unset⟩]

def otherAccessors : List (Accessor ThirdLogin) :=
  headAccessors toHeadPacket ++
    [intField "machine" true machine_,
      intField "source" true source_,
      textField "nickname" true .nickname nickname_,
      intField "sex" false sex_,
      intField "plat" false plt_,
      textField "birthday" false .plain birthday_,
      textField "location" false .decoded location_,
      textField "head" false .decoded head_,
      bigField "channel" false channel_,
      textField "imei" false .plain imei_]

def request : Request where
  Object := ThirdLogin
  Init := Init
  GetResult object := object.GetResult
  accessors := otherAccessors ++ sessionAccessors

/-- Of a source that is not known the session is not asked for, where there is a platform. -/
def Silent (values : String → Option (List Char)) : Prop :=
  values "session" = none ∧ (∃ type, values "type" = some type ∧ Integer type) ∧
    (∃ machine, values "machine" = some machine ∧ Integer machine) ∧
    (∃ nickname, values "nickname" = some nickname ∧ (Integer nickname ∨ StringText nickname)) ∧
    (∃ source, Source values source ∧ source ≠ PLAT_WB ∧ source ≠ PLAT_WX ∧ source ≠ PLAT_QQ) ∧
    ∃ plat, values "plat" = some plat ∧ Integer plat

theorem other_exact : ∀ accessor ∈ otherAccessors, Exact Init accessor := by
  rw [otherAccessors,List.forall_mem_append]
  refine ⟨headAccessors_exact fun _ _ => ⟨_,rfl⟩,?_⟩
  simp only [List.forall_mem_cons,List.not_mem_nil,false_imp_iff,implies_true,and_true]
  exact ⟨intField_exact fun _ _ => rfl,intField_exact fun _ _ => rfl,nicknameField_exact fun _ _ => rfl,intField_exact fun _ _ => rfl,
    intField_exact fun _ _ => rfl,plainField_exact fun _ _ => rfl,decodedField_exact (fun _ _ => rfl) (empty_head rfl),
    decodedField_exact (fun _ _ => rfl) (empty_head rfl),bigField_exact (fun _ _ => rfl) (by decide),plainField_exact fun _ _ => rfl⟩

theorem zero_iff (rubbish : String → Int64) (m_ : ValueMap Value) : (Init rubbish m_).GetResult = 0 ↔
    (GetBigInteger m_ "type").isSome ∧ (GetBigInteger m_ "machine").isSome ∧ (GetBigInteger m_ "source").isSome ∧
      (nickname m_).isSome ∧ (session (Init rubbish m_).source_ (GetBigInteger m_ "plat").isSome rubbish m_).2.2 = true := by
  simp [HeadPacket.GetResult,Init,HeadPacket.Reset,and_assoc]

theorem complete_iff : request.Complete values ↔ (values "type").isSome ∧ (values "machine").isSome ∧ (values "source").isSome ∧
    (values "nickname").isSome ∧ (values "session").isSome := by
  change (∀ accessor ∈ otherAccessors ++ sessionAccessors, accessor.needed = true → (accessor.own values).isSome = true) ↔ _
  simp [otherAccessors,sessionAccessors,headAccessors,intField,textField,bigField,Accessor.own]

section Login
variable (known : Known StringToDouble values m_)
include known

theorem read_integer {name : String} (ascii : Ascii name) :
    (GetBigInteger m_ name).isSome ↔ ∃ value, values name = some value ∧ Integer value := by
  rw [Option.isSome_iff_exists]
  constructor
  · rintro ⟨n,got⟩
    obtain ⟨value,mine,text⟩ := (known.big name ascii n).mp got
    exact ⟨value,mine,n,text⟩
  · rintro ⟨value,mine,n,text⟩
    exact ⟨n,(known.big name ascii n).mpr ⟨value,mine,text⟩⟩

theorem read_nickname : (nickname m_).isSome ↔ ∃ value, values "nickname" = some value ∧ (Integer value ∨ StringText value) := by
  have ascii : Ascii "nickname" := by decide
  cases mine : values "nickname" with
  | some value =>
    rw [known.nickname_read ascii mine rfl]
    simp
  | none =>
    have big : GetBigInteger m_ "nickname" = none := by
      cases got : GetBigInteger m_ "nickname" with
      | none => rfl
      | some n =>
        obtain ⟨value,other,-⟩ := (known.big _ ascii n).mp got
        cases mine.symm.trans other
    have string : GetString m_ "nickname" = none := by
      cases got : GetString m_ "nickname" with
      | none => rfl
      | some s =>
        obtain ⟨value,other,-⟩ := (known.string _ ascii s).mp got
        cases mine.symm.trans other
    rw [nickname,big,string]
    simp

/-- The source that is stored is the one that was read. -/
theorem source_iff {source : Int32} (rubbish : String → Int64) (read : (GetBigInteger m_ "source").isSome) :
    Source values source ↔ (Init rubbish m_).source_ = source := by
  obtain ⟨n,got⟩ := Option.isSome_iff_exists.mp read
  have stored : (Init rubbish m_).source_ = n.toInt32 := by
    change ((GetBigInteger m_ "source").getD (rubbish "source")).toInt32 = _
    rw [got]
    rfl
  rw [stored]
  constructor
  · rintro ⟨value,k,mine,text,same⟩
    have also := (known.big "source" (by decide) k).mpr ⟨value,mine,text⟩
    cases got.symm.trans also
    exact same
  · intro same
    obtain ⟨value,mine,text⟩ := (known.big "source" (by decide) n).mp got
    exact ⟨value,n,mine,text,same⟩

section Session
variable {value : List Char} (own : values "session" = some value) (rubbish : String → Int64)
include own

theorem number_session : (decimal ((GetBigInteger m_ "session").getD (rubbish "session")).toInt = decoded (utf8 value) ∧
    (GetBigInteger m_ "session").isSome = true) ↔ Number value := by
  by_cases integer : Integer value
  · obtain ⟨n,text⟩ := integer
    rw [known.big_text (by decide) own text]
    rw [Option.getD_some,Option.isSome_some,and_iff_left rfl,decimal_iff text.2,Number,and_iff_right ⟨n,text⟩]
  · rw [known.big_none (by decide) own integer]
    exact iff_of_false (fun read => Bool.false_ne_true read.2) fun right => integer right.1

theorem text_session : ((GetString m_ "session").getD [] = decoded (utf8 value) ∧ (GetString m_ "session").isSome = true) ↔ Plain value := by
  have ascii : ∀ name ∈ ["session"], Ascii name := by decide
  have read := known.plain_or ascii (own_single.mpr own)
  rw [List.findSome?_singleton] at read
  rw [read]
  refine and_iff_left_of_imp fun right => ?_
  rw [known.string_text (ascii _ List.mem_cons_self) own right.1]
  rfl

/-- For each source the session is read as it is to be exactly if it is a number or a text with it. -/
theorem session_iff (source : Int32) : ((session source (GetBigInteger m_ "plat").isSome rubbish m_).2.1 = decoded (utf8 value) ∧
      (session source (GetBigInteger m_ "plat").isSome rubbish m_).2.2 = true) ↔
    (source = PLAT_WB → Number value) ∧ (source = PLAT_WX ∨ source = PLAT_QQ → Plain value) ∧
    (source ≠ PLAT_WB → source ≠ PLAT_WX → source ≠ PLAT_QQ → value = [] ∧ ∃ plat, values "plat" = some plat ∧ Integer plat) := by
  have apart : PLAT_WB ≠ PLAT_WX ∧ PLAT_WB ≠ PLAT_QQ := by decide
  rw [session]
  by_cases wb : source = PLAT_WB
  · subst wb
    rw [if_pos rfl]
    simp only [apart,ne_eq,not_true_eq_false,false_imp_iff,true_imp_iff,and_true,or_self]
    exact number_session known own rubbish
  · rw [if_neg wb]
    by_cases wx : source = PLAT_WX
    · subst wx
      rw [if_pos rfl]
      simp only [wb,ne_eq,not_true_eq_false,false_imp_iff,true_imp_iff,implies_true,and_true,true_and,true_or]
      exact text_session known own
    · rw [if_neg wx]
      by_cases qq : source = PLAT_QQ
      · subst qq
        rw [if_pos rfl]
        simp only [wb,wx,ne_eq,not_true_eq_false,false_imp_iff,true_imp_iff,implies_true,and_true,true_and,or_true]
        exact text_session known own
      · rw [if_neg qq]
        simp only [wb,wx,qq,ne_eq,not_false_eq_true,false_imp_iff,true_imp_iff,true_and,or_self]
        rw [eq_comm,decoded_nil,read_integer known (by decide)]
        exact and_congr_left' ⟨utf8_nil,fun empty => empty ▸ rfl⟩

/-- The member of the union that is in use holds the session. -/
theorem union_of {source : Int32} (right : SessionRight values value) (is : (Init rubbish m_).source_ = source)
    (read : Source values source) : ∀ accessor ∈ sessionAccessors, accessor.kind = .union → (accessor.result (Init rubbish m_)).Of value := by
  have union_ : (Init rubbish m_).union_ = (session source (GetBigInteger m_ "plat").isSome rubbish m_).1 := by
    rw [← is]
    rfl
  obtain ⟨number,text,-⟩ := right source read
  simp only [sessionAccessors,List.forall_mem_cons,List.not_mem_nil,false_imp_iff,implies_true,and_true,true_imp_iff,reduceCtorEq,true_and]
  rw [union_,session]
  by_cases wb : source = PLAT_WB
  · rw [if_pos wb]
    obtain ⟨⟨n,integer⟩,-⟩ := number wb
    rw [known.big_text (by decide) own integer]
    exact ⟨integer.2,trivial,trivial⟩
  · rw [if_neg wb]
    by_cases wx : source = PLAT_WX
    · rw [if_pos wx]
      exact ⟨trivial,((text_session known own).mpr (text (.inl wx))).1,trivial⟩
    · rw [if_neg wx]
      by_cases qq : source = PLAT_QQ
      · rw [if_pos qq]
        exact ⟨trivial,trivial,((text_session known own).mpr (text (.inr qq))).1⟩
      · rw [if_neg qq]
        exact ⟨trivial,trivial,trivial⟩

end Session

end Login

/-- All accessors but those of the session, of a form that is read. -/
theorem other_iff (known : Known StringToDouble values m_) {accessor : Accessor ThirdLogin} (listed : accessor ∈ otherAccessors)
    {value : List Char} (own : accessor.own values = some value) :
    (∀ rubbish, (accessor.result (Init rubbish m_)).Of value) ↔ accessor.kind.Right values value := by
  have ascii : ∀ accessor ∈ otherAccessors, ∀ name ∈ accessor.parameters, Ascii name := by decide
  exact other_exact accessor listed (ascii accessor listed) _ _ _ known value own

theorem session_own {accessor : Accessor ThirdLogin} (listed : accessor ∈ sessionAccessors) {value : List Char}
    (own : accessor.own values = some value) : values "session" = some value := by
  have names : ∀ accessor ∈ sessionAccessors, accessor.parameters = ["session"] := by decide
  rw [Accessor.own,names accessor listed,List.findSome?_singleton] at own
  exact own

theorem needed_right (complete : request.Complete values)
    (right : ∀ accessor ∈ request.accessors, ∀ value, accessor.own values = some value → accessor.kind.Right values value) :
    (∃ type, values "type" = some type ∧ Integer type) ∧ (∃ machine, values "machine" = some machine ∧ Integer machine) ∧
      (∃ nickname, values "nickname" = some nickname ∧ (Integer nickname ∨ StringText nickname)) ∧
      (∃ source, Source values source) ∧ ∃ session, values "session" = some session ∧ SessionRight values session := by
  rw [complete_iff] at complete
  simp only [Option.isSome_iff_exists] at complete
  obtain ⟨⟨type,one⟩,⟨machine,two⟩,⟨source,three⟩,⟨nickname,four⟩,session,five⟩ := complete
  change ∀ accessor ∈ otherAccessors ++ sessionAccessors, _ at right
  simp only [otherAccessors,sessionAccessors,headAccessors,intField,textField,bigField,List.forall_mem_append,List.forall_mem_cons,
    Accessor.own,List.findSome?_singleton,Kind.Right] at right
  obtain ⟨⟨⟨types,-⟩,machines,sources,nicknames,-⟩,sessions,-⟩ := right
  obtain ⟨n,text,-⟩ := types type one
  obtain ⟨k,also,-⟩ := machines machine two
  obtain ⟨i,third,-⟩ := sources source three
  exact ⟨⟨type,one,n,text⟩,⟨machine,two,k,also⟩,⟨nickname,four,(nicknames nickname four).imp And.left And.left⟩,
    ⟨_,source,i,three,third,rfl⟩,session,five,sessions session five⟩

section Lawful
variable (known : Known StringToDouble values m_)
include known

theorem session_right {value : List Char} (mine : values "session" = some value)
    (zero : (Init (fun _ => 0) m_).GetResult = 0) (text : (Init (fun _ => 0) m_).session_ = decoded (utf8 value)) :
    SessionRight values value := by
  intro source read
  obtain ⟨-,-,sourced,-,r⟩ := (zero_iff (fun _ => 0) m_).mp zero
  have is := (source_iff known (fun _ => 0) sourced).mp read
  have made : (Init (fun _ => 0) m_).session_ =
      (session (Init (fun _ => 0) m_).source_ (GetBigInteger m_ "plat").isSome (fun _ => 0) m_).2.1 := rfl
  rw [made,is] at text
  rw [is] at r
  exact (session_iff known mine (fun _ => 0) source).mp ⟨text,r⟩

theorem sourced {source : Int32} (read : Source values source) : (GetBigInteger m_ "source").isSome := by
  obtain ⟨text,n,own,integer,-⟩ := read
  exact (read_integer known (by decide)).mpr ⟨text,own,n,integer⟩

theorem silent_of_zero {rubbish : String → Int64} (zero : (Init rubbish m_).GetResult = 0) (lacks : ¬request.Complete values) :
    Silent values := by
  obtain ⟨type,machine,sourced,nickname,r⟩ := (zero_iff rubbish m_).mp zero
  have read := (source_iff known rubbish sourced).mpr rfl
  have types := (read_integer known (by decide)).mp type
  have machines := (read_integer known (by decide)).mp machine
  have sources := (read_integer known (by decide)).mp sourced
  have nicknames := (read_nickname known).mp nickname
  -- what is missing is the session
  have absent : values "session" = none := by
    cases mine : values "session" with
    | none => rfl
    | some value =>
      obtain ⟨kind,one,-⟩ := types
      obtain ⟨device,two,-⟩ := machines
      obtain ⟨origin,three,-⟩ := sources
      obtain ⟨name,four,-⟩ := nicknames
      refine absurd (complete_iff.mpr ?_) lacks
      rw [one,two,three,four,mine]
      exact ⟨rfl,rfl,rfl,rfl,rfl⟩
  have nothing {α : Type} {get : String → Option α} {Text : List Char → α → Prop} (finds : Finds get values Text) :
      (get "session").isSome = false := by
    cases got : get "session" with
    | none => rfl
    | some x =>
      obtain ⟨value,mine,-⟩ := (finds "session" (by decide) x).mp got
      cases absent.symm.trans mine
  have big := nothing known.big
  have string := nothing known.string
  rw [session] at r
  split_ifs at r with wb wx qq
  · exact absurd (big.symm.trans r) Bool.false_ne_true
  · exact absurd (string.symm.trans r) Bool.false_ne_true
  · exact absurd (string.symm.trans r) Bool.false_ne_true
  · exact ⟨absent,types,machines,nicknames,⟨_,read,wb,wx,qq⟩,(read_integer known (by decide)).mp r⟩

theorem zero_of_silent (silent : Silent values) (rubbish : String → Int64) : (Init rubbish m_).GetResult = 0 := by
  obtain ⟨-,types,machines,nicknames,⟨source,read,wb,wx,qq⟩,plats⟩ := silent
  have type := (read_integer known (by decide)).mpr types
  have machine := (read_integer known (by decide)).mpr machines
  have plat := (read_integer known (by decide)).mpr plats
  refine (zero_iff rubbish m_).mpr ⟨type,machine,sourced known read,(read_nickname known).mpr nicknames,?_⟩
  rw [(source_iff known rubbish (sourced known read)).mp read,session,if_neg wb,if_neg wx,if_neg qq]
  exact plat

end Lawful

theorem law : Lawful request Silent where
  forward {_ values m_} known returns accessor listed value own := by
    rcases List.mem_append.mp listed with other | part
    · exact (other_iff known other own).mp fun rubbish => (returns rubbish).2 accessor listed value own
    · have mine := session_own part own
      have kinds : ∀ accessor ∈ sessionAccessors, accessor.kind = .session ∨ accessor.kind = .union := by decide
      rcases kinds accessor part with kind | kind
      · rw [kind]
        obtain ⟨zero,each⟩ := returns fun _ => 0
        exact session_right known mine zero (each _ (List.mem_append_right _ List.mem_cons_self) value (own_single.mpr mine))
      · rw [kind]
        trivial
  backward {_ values m_} known complete right rubbish := by
    obtain ⟨types,machines,nicknames,⟨source,read⟩,value,mine,session⟩ := needed_right complete right
    have is := (source_iff known rubbish (sourced known read)).mp read
    obtain ⟨text,r⟩ := (session_iff known mine rubbish source).mpr (session source read)
    have type := (read_integer known (by decide)).mpr types
    have machine := (read_integer known (by decide)).mpr machines
    have zero : (Init rubbish m_).GetResult = 0 := by
      refine (zero_iff rubbish m_).mpr ⟨type,machine,sourced known read,(read_nickname known).mpr nicknames,?_⟩
      rw [is]
      exact r
    refine ⟨zero,fun accessor listed other own => ?_⟩
    rcases List.mem_append.mp listed with field | part
    · exact (other_iff known field own).mpr (right accessor listed other own) rubbish
    · cases mine.symm.trans (session_own part own)
      have kinds : ∀ accessor ∈ sessionAccessors.tail, accessor.kind = .union := by decide
      rcases List.mem_cons.mp part with rfl | member
      · change (ThirdLogin.session (Init rubbish m_).source_ (GetBigInteger m_ "plat").isSome rubbish m_).2.1 = _
        rw [is]
        exact text
      · exact union_of known mine rubbish session is read accessor part (kinds accessor member)
  missing {_ values m_} known lacks := by
    constructor
    · intro reports silent
      have zero : (Init (fun _ => 0) m_).GetResult = 0 := zero_of_silent known silent (fun _ => 0)
      exact reports (fun _ => 0) zero
    · intro loud rubbish result
      have zero : (Init rubbish m_).GetResult = 0 := result
      exact loud (silent_of_zero known zero lacks)

end ThirdLogin

/-! ### Forms that are decoded -/

section Forms
variable {pairs : List Pair} (mark : (formOf pairs).head? ≠ some '\uFEFF') (short : (utf8 (formOf pairs)).length + 1 < 2 ^ 31)
  (terminator : UInt8)
include mark short

theorem regular_decodes {request : Request} (regular : Regular request) :
    request.Decodes StringToDouble pairs terminator ↔ request.Right StringToDouble pairs := by
  rw [decodes_iff short regular.law mark terminator]
  exact and_iff_left fun _ _ => not_false

/-- Digits are no text, texts that are not decoded are to need no decoding, and the name of a
song is lost; a login asks for the session only if it knows the source. -/
theorem fields_decoded :
    (∀ request ∈ [SetCollect.request,DelCollect.request,Dimension.request,Dimensions.request,RecordMusic.request,
      UpdateUserInfo.request,BDBindPush.request],
      request.Decodes StringToDouble pairs terminator ↔ request.Right StringToDouble pairs) ∧
    (ThirdLogin.request.Decodes StringToDouble pairs terminator ↔
      ThirdLogin.request.Right StringToDouble pairs ∧ (Read StringToDouble pairs → ¬ThirdLogin.Silent (parameter pairs))) := by
  constructor
  · simp only [List.forall_mem_cons,List.not_mem_nil,false_imp_iff,implies_true,and_true]
    exact ⟨regular_decodes mark short terminator SetCollect.regular,regular_decodes mark short terminator DelCollect.regular,
      regular_decodes mark short terminator Dimension.regular,regular_decodes mark short terminator Dimensions.regular,
      regular_decodes mark short terminator RecordMusic.regular,regular_decodes mark short terminator UpdateUserInfo.regular,
      regular_decodes mark short terminator BDBindPush.regular⟩
  · rw [decodes_iff short ThirdLogin.law mark terminator]
    apply and_congr_right'
    constructor
    · intro reports read silent
      refine reports (fun complete => ?_) read silent
      have session := (ThirdLogin.complete_iff.mp complete).2.2.2.2
      rw [silent.1] at session
      cases session
    · exact fun reports _ => reports

end Forms

/-- A form that takes a song back, of the token. -/
def takingBack (token : List Char) (plain : ∀ c ∈ token, c ∉ reserved) : List Pair :=
  [⟨"type".toList,"1".toList,plain_of rfl,plain_of rfl⟩,⟨"uid".toList,"7".toList,plain_of rfl,plain_of rfl⟩,
    ⟨"token".toList,token,plain_of rfl,plain⟩,⟨"songid".toList,"3".toList,plain_of rfl,plain_of rfl⟩]

theorem integer_readable {value : List Char} (plain : ∀ c ∈ value, c ∉ reserved) (short : (utf8 value).length < 2 ^ 31)
    (integer : Integer value) : Readable StringToDouble value := by
  obtain ⟨n,text⟩ := integer
  exact (readable_iff plain short).mp ⟨_,(integer_iff plain short n).mpr text⟩

theorem abc_text : StringText "abc".toList := by
  refine ⟨⟨by decide,by decide,by decide⟩,fun like => ?_⟩
  obtain ⟨c,others,same,first⟩ := like.first
  cases same
  exact absurd first (by decide)

theorem takingBack_read : Read (fun _ => none) (takingBack "abc".toList (plain_of rfl)) := by
  have words : Word "type".toList ∧ Word "uid".toList ∧ Word "token".toList ∧ Word "songid".toList :=
    ⟨⟨by decide,by decide,by decide⟩,⟨by decide,by decide,by decide⟩,⟨by decide,by decide,by decide⟩,⟨by decide,by decide,by decide⟩⟩
  obtain ⟨type,uid,token,songid⟩ := words
  constructor
  · simp only [takingBack,List.forall_mem_cons,List.not_mem_nil,false_imp_iff,implies_true,and_true]
    exact ⟨⟨by decide,type,integer_readable (plain_of rfl) (by decide) ⟨1,by decide,.inl rfl⟩⟩,
      ⟨by decide,uid,integer_readable (plain_of rfl) (by decide) ⟨7,by decide,.inl rfl⟩⟩,⟨by decide,token,.inl abc_text⟩,
      by decide,songid,integer_readable (plain_of rfl) (by decide) ⟨3,by decide,.inl rfl⟩⟩
  · intro before pair after same _
    have few : blanks before ≤ before.length := List.countP_le_length
    have total := congrArg List.length same
    rw [List.length_append,List.length_cons] at total
    change 4 = before.length + (after.length + 1) at total
    have limit : kStackLimit = 100 := rfl
    omega

theorem taken_back : DelCollect.request.Decodes (fun _ => none) (takingBack "abc".toList (plain_of rfl)) 10 := by
  refine ((fields_decoded (by decide) (by decide) 10).1 _ (.tail _ (.head _))).mpr fun _ => ⟨takingBack_read,?_⟩
  change ∀ accessor ∈ loginAccessors DelCollect.toLoginHeadPacket ++ [bigField "songid" true DelCollect.songid_], _
  simp only [loginAccessors,headAccessors,intField,textField,bigField,List.forall_mem_append,List.forall_mem_cons,
    Accessor.own,List.findSome?_singleton,Kind.Right,List.not_mem_nil,false_imp_iff,implies_true,and_true]
  refine ⟨⟨⟨?_,?_,?_⟩,?_,?_⟩,?_⟩
  · intro value own
    cases own
    exact ⟨1,⟨by decide,.inl rfl⟩,by decide⟩
  · intro value own
    cases own
  · intro value own
    cases own
  · intro value own
    cases own
    exact ⟨7,by decide,.inl rfl⟩
  · intro value own
    cases own
    exact ⟨abc_text,by decide⟩
  · intro value own
    cases own
    exact ⟨3,by decide,.inl rfl⟩

theorem not_taken_back : ¬DelCollect.request.Decodes (fun _ => none) (takingBack "12".toList (plain_of rfl)) 10 := by
  rw [regular_decodes (by decide) (by decide) 10 DelCollect.regular]
  intro right
  have complete : DelCollect.request.Complete (parameter (takingBack "12".toList (plain_of rfl))) := by
    change ∀ accessor ∈ loginAccessors DelCollect.toLoginHeadPacket ++ [bigField "songid" true DelCollect.songid_], _
    decide
  have plain : Plain "12".toList := (right complete).2 (textField "token" true .plain fun object => object.token_)
    (List.mem_append_left _ (List.mem_append_right _ (.tail _ (.head _)))) _ rfl
  exact plain.1.2 ⟨⟨'1',['2'],rfl,.inl rfl⟩,List.forall_mem_cons.mpr ⟨rfl,List.forall_mem_singleton.mpr rfl⟩,by decide,by decide⟩

end Migfm.Recv
