import Migfm.Library.SqlText
import Migfm.Logic.Infos

/-! svc/usersvc/db_comm.cc: users are logged in, registered and updated by stored
procedures, whose calls are put together as text. -/
namespace Migfm.Usersvc
open Library.SqlText
open Logic (ascii decimal decimalDigits atoll)

/-- `channel_` is not initialized. -/
structure UserInfo where
  uid_ : Int64 := 0
  sex_ : Int32 := 0
  machine_ : Int32 := 0
  logintime_ : Int64 := 0
  type_ : Int32 := 0
  source_ : Int32 := 0
  plt_ : Int32 := 0
  channel_ : Int32
  session_ : List UInt8 := []
  imei_ : List UInt8 := []
  nickname_ : List UInt8 := []
  city_ : List UInt8 := []
  head_ : List UInt8 := []
  birthday_ : List UInt8 := []
  location_ : List UInt8 := []
  token_ : List UInt8 := []

/-- What is called, with the record it is called for and the city of the position. -/
inductive Statement
  | proc_V2ThirdLogin (userinfo : UserInfo)
  | proc_QuickRegister (userinfo : UserInfo) (city : List UInt8)
  | proc_V2UpdateUserInfo (userinfo : UserInfo)

/-! The texts, as they are put into `os` one after another. -/

def sqlThirdLogin (userinfo : UserInfo) : List UInt8 := List.flatten
  [ascii "call proc_V2ThirdLogin('",userinfo.imei_,ascii "',",decimal userinfo.machine_.toInt,
    ascii ",",decimal userinfo.type_.toInt,ascii ",'",userinfo.city_,ascii "','",userinfo.nickname_,
    ascii "','",userinfo.session_,ascii "',",decimal userinfo.sex_.toInt,ascii ",'",userinfo.birthday_,
    ascii "','",userinfo.head_,ascii "',",decimal userinfo.plt_.toInt,ascii ",",decimal userinfo.channel_.toInt,ascii ");"]

def sqlQuickRegister (userinfo : UserInfo) (city : List UInt8) : List UInt8 := List.flatten
  [ascii "call buddha.proc_QuickRegister('",userinfo.imei_,ascii "',",decimal userinfo.machine_.toInt,
    ascii ",'",city,ascii "')"]

def sqlUpdateUserInfo (userinfo : UserInfo) : List UInt8 := List.flatten
  [ascii "call proc_V2UpdateUserInfo(",decimal userinfo.uid_.toInt,ascii ",",decimal userinfo.sex_.toInt,ascii ",'",
    userinfo.nickname_,ascii "','",userinfo.birthday_,ascii "');"]

def Statement.sql : Statement → List UInt8
  | .proc_V2ThirdLogin userinfo => sqlThirdLogin userinfo
  | .proc_QuickRegister userinfo city => sqlQuickRegister userinfo city
  | .proc_V2UpdateUserInfo userinfo => sqlUpdateUserInfo userinfo

/-- The columns of a row, NULL for what it has not. -/
abbrev Row := Nat → Option (List UInt8)

/-- What a statement makes of the database and the rows it answers, if it succeeds. -/
structure Engine (Database : Type) where
  SQLExec : Database → Statement → Option (Database × List Row)

/-- The database, and what was handed to the engine. -/
structure Session (Database : Type) where
  db : Database
  handed : List (List UInt8)

section DBComm
variable {Database : Type}

/-- `SQLExec` takes a C string. -/
def Session.SQLExec (session : Session Database) (engine : Engine Database) (statement : Statement) :
    Session Database × Option (List Row) :=
  let handed := session.handed ++ [cut statement.sql]
  match engine.SQLExec session.db statement with
  | none => ({session with handed},none)
  | some (db,rows) => ({db, handed},some rows)

/-- The machine is read from two columns. -/
def UserInfo.readThirdLogin (userinfo : UserInfo) (rows : Row) : UserInfo :=
  {userinfo with
    uid_ := ((rows 0).map atoll).getD userinfo.uid_
    sex_ := ((rows 1).map fun text => (atoll text).toInt32).getD userinfo.sex_
    nickname_ := (rows 2).getD userinfo.nickname_
    city_ := (rows 3).getD userinfo.city_
    type_ := ((rows 4).map fun text => (atoll text).toInt32).getD userinfo.type_
    machine_ := ((rows 6).map fun text => (atoll text).toInt32).getD
      (((rows 5).map fun text => (atoll text).toInt32).getD userinfo.machine_)
    head_ := (rows 7).getD userinfo.head_}

def UserInfo.readQuickRegister (userinfo : UserInfo) (rows : Row) : UserInfo :=
  {userinfo with
    uid_ := ((rows 0).map atoll).getD userinfo.uid_
    sex_ := ((rows 1).map fun text => (atoll text).toInt32).getD userinfo.sex_
    nickname_ := (rows 2).getD userinfo.nickname_
    city_ := (rows 3).getD userinfo.city_
    type_ := ((rows 4).map fun text => (atoll text).toInt32).getD userinfo.type_
    machine_ := ((rows 5).map fun text => (atoll text).toInt32).getD userinfo.machine_
    head_ := (rows 6).getD userinfo.head_}

/-- Without a connection nothing is done; otherwise the first row is read into the record. -/
def Session.query (session : Session Database) (engine : Option (Engine Database)) (statement : Statement) (read : Row → UserInfo) :
    Session Database × Option UserInfo :=
  match engine with
  | none => (session,none)
  | some engine =>
    let (session,rows) := session.SQLExec engine statement
    (session,(rows.bind List.head?).map read)

def OnThirdLogin (engine : Option (Engine Database)) (session : Session Database) (userinfo : UserInfo) :
    Session Database × Option UserInfo :=
  session.query engine (.proc_V2ThirdLogin userinfo) userinfo.readThirdLogin

def OnQuickRegister (engine : Option (Engine Database)) (session : Session Database) (userinfo : UserInfo) (city : List UInt8) :
    Session Database × Option UserInfo :=
  session.query engine (.proc_QuickRegister userinfo city) userinfo.readQuickRegister

/-- The statement is executed for the log and executed again. -/
def OnUpdateUserInfo (engine : Option (Engine Database)) (session : Session Database) (userinfo : UserInfo) :
    Session Database × Bool :=
  match engine with
  | none => (session,false)
  | some engine =>
    let (session,_) := session.SQLExec engine (.proc_V2UpdateUserInfo userinfo)
    let (session,rows) := session.SQLExec engine (.proc_V2UpdateUserInfo userinfo)
    (session,rows.isSome)

theorem SQLExec_handed (session : Session Database) (engine : Engine Database) (statement : Statement) :
    (session.SQLExec engine statement).1.handed = session.handed ++ [cut statement.sql] := by
  unfold Session.SQLExec
  split <;> rfl

end DBComm

/-! ### The calls that are meant -/

/-- The words before the bracket. -/
def Statement.front : Statement → List UInt8
  | .proc_V2ThirdLogin _ => ascii "call proc_V2ThirdLogin("
  | .proc_QuickRegister _ _ => ascii "call buddha.proc_QuickRegister("
  | .proc_V2UpdateUserInfo _ => ascii "call proc_V2UpdateUserInfo("

def Statement.words : Statement → List Token
  | .proc_V2ThirdLogin _ => [.word (ascii "call"),.word (ascii "proc_V2ThirdLogin"),.symbol 40]
  | .proc_QuickRegister _ _ => [.word (ascii "call"),.word (ascii "buddha"),.symbol 46,.word (ascii "proc_QuickRegister"),.symbol 40]
  | .proc_V2UpdateUserInfo _ => [.word (ascii "call"),.word (ascii "proc_V2UpdateUserInfo"),.symbol 40]

/-- The first argument and the others. -/
def Statement.args : Statement → Arg × List Arg
  | .proc_V2ThirdLogin userinfo => (.text userinfo.imei_,[.int userinfo.machine_.toInt,.int userinfo.type_.toInt,.text userinfo.city_,
      .text userinfo.nickname_,.text userinfo.session_,.int userinfo.sex_.toInt,.text userinfo.birthday_,.text userinfo.head_,
      .int userinfo.plt_.toInt,.int userinfo.channel_.toInt])
  | .proc_QuickRegister userinfo city => (.text userinfo.imei_,[.int userinfo.machine_.toInt,.text city])
  | .proc_V2UpdateUserInfo userinfo => (.int userinfo.uid_.toInt,[.int userinfo.sex_.toInt,.text userinfo.nickname_,
      .text userinfo.birthday_])

def Statement.close : Statement → List UInt8
  | .proc_QuickRegister _ _ => [41]
  | _ => [41,59]

/-- The call that is meant. -/
def Statement.call (statement : Statement) : List Token :=
  statement.words ++ (statement.args.1.tokens ++ followingTokens (statement.close.map .symbol) statement.args.2)

theorem prints : Prints decimalDigits where
  each n := by
    rw [List.all_eq_true]
    intro c listed
    have digit := Logic.isDigit_decimalDigits n c listed
    simp only [Logic.isDigit,decide_eq_true_eq] at digit
    simp only [Library.SqlText.digit,Bool.and_eq_true,decide_eq_true_eq,UInt8.le_iff_toNat_le]
    exact digit
  numeral := Logic.denoted_decimalDigits
  length n := List.length_map ..

theorem closes (statement : Statement) : Closes statement.close (statement.close.map .symbol) := by
  cases statement with
  | proc_QuickRegister => exact ⟨⟨41,_,rfl,.inr rfl⟩,rfl,rfl,rfl,by simp [Statement.close],by simp [Statement.close]⟩
  | proc_V2ThirdLogin | proc_V2UpdateUserInfo => exact ⟨⟨41,_,rfl,.inr rfl⟩,rfl,rfl,rfl,by simp [Statement.close],by simp [Statement.close]⟩

theorem sql_eq (statement : Statement) :
    statement.sql = statement.front ++ (statement.args.1.render decimalDigits ++ following decimalDigits statement.close statement.args.2) := by
  have int (n : Int) : (Arg.int n).render decimalDigits = decimal n := rfl
  have text (value : List UInt8) : (Arg.text value).render decimalDigits = 39::(value ++ [39]) := rfl
  have comma : ascii "," = [44] := rfl
  have text_comma : ascii "'," = [39,44] := rfl
  have comma_text : ascii ",'" = [44,39] := rfl
  have texts : ascii "','" = [39,44,39] := rfl
  have last : ascii ");" = [41,59] := rfl
  have text_close : ascii "')" = [39,41] := rfl
  have text_last : ascii "');" = [39,41,59] := rfl
  cases statement with
  | proc_V2ThirdLogin userinfo =>
    have quote : ascii "call proc_V2ThirdLogin('" = ascii "call proc_V2ThirdLogin(" ++ [39] := rfl
    simp only [Statement.sql,sqlThirdLogin,Statement.front,Statement.args,Statement.close,following,int,text,quote,comma,text_comma,
      comma_text,texts,last,List.flatten_cons,List.flatten_nil,List.append_assoc,List.cons_append,List.nil_append]
  | proc_QuickRegister userinfo city =>
    have quote : ascii "call buddha.proc_QuickRegister('" = ascii "call buddha.proc_QuickRegister(" ++ [39] := rfl
    simp only [Statement.sql,sqlQuickRegister,Statement.front,Statement.args,Statement.close,following,int,text,quote,text_comma,
      comma_text,text_close,List.flatten_cons,List.flatten_nil,List.append_assoc,List.cons_append,List.nil_append]
  | proc_V2UpdateUserInfo userinfo =>
    simp only [Statement.sql,sqlUpdateUserInfo,Statement.front,Statement.args,Statement.close,following,int,text,comma,comma_text,
      texts,text_last,List.flatten_cons,List.flatten_nil,List.append_assoc,List.cons_append,List.nil_append]

/-- The words of a front are read as they stand there. -/
theorem front_reads (statement : Statement) (text : List UInt8) :
    lexFrom .between (statement.front ++ text) = (lexFrom .between text).map (statement.words ++ ·) := by
  have scanned : scan .between statement.front = (statement.words,.between) := by
    cases statement with
    | _ => rfl
  rw [lexFrom_append,scanned]

/-- What is handed over is the call that is meant exactly if each of its texts stands for itself. -/
theorem lex_statement (statement : Statement) : lex (cut statement.sql) = some statement.call ↔
    ∀ value, .text value ∈ statement.args.1::statement.args.2 → Literal 39 value ∧ 0 ∉ value := by
  have plain : ∀ value, .string value ∉ statement.words := by
    cases statement <;> simp [Statement.words]
  have clean : 0 ∉ statement.front := by
    cases statement with
    | proc_V2ThirdLogin => exact (by decide : 0 ∉ ascii "call proc_V2ThirdLogin(")
    | proc_QuickRegister => exact (by decide : 0 ∉ ascii "call buddha.proc_QuickRegister(")
    | proc_V2UpdateUserInfo => exact (by decide : 0 ∉ ascii "call proc_V2UpdateUserInfo(")
  rw [sql_eq]
  exact lex_call_iff prints (closes statement) (front_reads statement) plain clean statement.args.1 statement.args.2

/-! ### What a request hands over -/

section Requests
variable {Database : Type}

def Statement.perform (engine : Option (Engine Database)) (session : Session Database) : Statement → Session Database
  | .proc_V2ThirdLogin userinfo => (OnThirdLogin engine session userinfo).1
  | .proc_QuickRegister userinfo city => (OnQuickRegister engine session userinfo city).1
  | .proc_V2UpdateUserInfo userinfo => (OnUpdateUserInfo engine session userinfo).1

/-- One text is handed over, and it is the call that is meant. -/
def Statement.HandsCall (engine : Option (Engine Database)) (session : Session Database) (statement : Statement) : Prop :=
  ∃ text, (statement.perform engine session).handed = session.handed ++ [text] ∧ lex text = some statement.call

/-- It stands for itself between quotes and in a C string. -/
def Plain (text : List UInt8) : Prop := Literal 39 text ∧ 0 ∉ text

/-- The requests whose call is the one that is meant. -/
def Statement.Spares : Statement → Prop
  | .proc_V2ThirdLogin userinfo => Plain userinfo.imei_ ∧ Plain userinfo.city_ ∧ Plain userinfo.nickname_ ∧ Plain userinfo.session_ ∧
    Plain userinfo.birthday_ ∧ Plain userinfo.head_
  | .proc_QuickRegister userinfo city => Plain userinfo.imei_ ∧ Plain city
  | .proc_V2UpdateUserInfo _ => False

theorem query_handed (engine : Engine Database) (session : Session Database) (statement : Statement) (read : Row → UserInfo) :
    (session.query (some engine) statement read).1.handed = session.handed ++ [cut statement.sql] :=
  SQLExec_handed session engine statement

theorem OnUpdateUserInfo_handed (engine : Engine Database) (session : Session Database) (userinfo : UserInfo) :
    (OnUpdateUserInfo (some engine) session userinfo).1.handed =
      session.handed ++ List.replicate 2 (cut (sqlUpdateUserInfo userinfo)) := by
  have first := SQLExec_handed session engine (.proc_V2UpdateUserInfo userinfo)
  have again := SQLExec_handed (session.SQLExec engine (.proc_V2UpdateUserInfo userinfo)).1 engine (.proc_V2UpdateUserInfo userinfo)
  calc (OnUpdateUserInfo (some engine) session userinfo).1.handed
    _ = (session.SQLExec engine (.proc_V2UpdateUserInfo userinfo)).1.handed ++ [cut (sqlUpdateUserInfo userinfo)] := again
    _ = session.handed ++ List.replicate 2 (cut (sqlUpdateUserInfo userinfo)) := by
      rw [first,List.append_assoc]
      rfl

/-- Without a connection nothing is handed over. -/
theorem perform_none (session : Session Database) (statement : Statement) : statement.perform none session = session := by
  cases statement with
  | _ => rfl

theorem handsCall_once {engine : Option (Engine Database)} {session : Session Database} {statement : Statement}
    (once : (statement.perform engine session).handed = session.handed ++ [cut statement.sql]) :
    statement.HandsCall engine session ↔ ∀ value, .text value ∈ statement.args.1::statement.args.2 → Plain value := by
  rw [Statement.HandsCall,once]
  simp only [List.append_cancel_left_eq,List.cons.injEq,and_true,exists_eq_left']
  exact lex_statement statement

theorem handsCall_iff (engine : Option (Engine Database)) (session : Session Database) (statement : Statement) :
    statement.HandsCall engine session ↔ engine.isSome ∧ statement.Spares := by
  cases engine with
  | none =>
    refine iff_of_false ?_ (fun spares => by cases spares.1)
    rintro ⟨text,handed,_⟩
    rw [perform_none] at handed
    simpa using congrArg List.length handed
  | some engine =>
    cases statement with
    | proc_V2ThirdLogin userinfo =>
      have once := query_handed engine session (.proc_V2ThirdLogin userinfo) userinfo.readThirdLogin
      rw [@handsCall_once _ _ _ (.proc_V2ThirdLogin userinfo) once]
      simp [Statement.args,Statement.Spares]
    | proc_QuickRegister userinfo city =>
      have once := query_handed engine session (.proc_QuickRegister userinfo city) userinfo.readQuickRegister
      rw [@handsCall_once _ _ _ (.proc_QuickRegister userinfo city) once]
      simp [Statement.args,Statement.Spares]
    | proc_V2UpdateUserInfo userinfo =>
      refine iff_of_false ?_ And.right
      rintro ⟨text,handed,_⟩
      rw [Statement.perform,OnUpdateUserInfo_handed] at handed
      simpa using congrArg List.length handed

/-- The nickname ends the string, and its other part is the rest of a call with another session. -/
def foreign : UserInfo where
  channel_ := 0
  nickname_ := ascii "','another',0,'','',0,0);-- "

/-- An engine that takes everything and answers nothing. -/
def silent : Engine Unit := ⟨fun db _ => some (db,[])⟩

set_option maxRecDepth 4000 in
/-- The call is that of another session, and an update is executed twice. -/
theorem call_misread : ¬ (Statement.proc_V2ThirdLogin foreign).HandsCall (some silent) ⟨(),[]⟩ ∧
    ¬ (Statement.proc_V2UpdateUserInfo { channel_ := 0 }).HandsCall (some silent) ⟨(),[]⟩ := by
  constructor
  · rintro ⟨text,handed,lexed⟩
    have other : lex (cut (sqlThirdLogin foreign)) =
        some (Statement.proc_V2ThirdLogin { channel_ := 0,session_ := ascii "another" }).call := by decide
    have same : cut (sqlThirdLogin foreign) = text := (List.cons.inj handed).1
    rw [← same,other] at lexed
    exact absurd lexed (by decide)
  · rintro ⟨text,handed,_⟩
    rw [Statement.perform,OnUpdateUserInfo_handed] at handed
    simpa using congrArg List.length handed

end Requests

end Migfm.Usersvc
