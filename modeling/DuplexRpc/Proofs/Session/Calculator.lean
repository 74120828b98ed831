import DuplexRpc.Proofs.Connection.Handlers
import DuplexRpc.Proofs.Connection.Turns
import DuplexRpc.Proofs.Session.Arithmetic

/-!
# What the calculator answers

The calculator finds two integers in every request that has passed the check, whatever
integers they are. So its answers are those of the arithmetic, and the only errors in them
are that a sum does not fit and that there is no division by zero.

A division is answered before it is reported on. Its two reports are queued while the handler
runs, so they are written behind the answer and behind what was queued before.
-/

namespace DuplexRpc.Calculator

variable {σ : Type}

/-! ### The service -/

def source : Source :=
  .ofBytes (Text.utf8 ("name calc\n\nserver oneway log(text string)\n" ++
    "server add(a int, b int)(c int)\n" ++
    "server divide(a int, b int)(quotient int, remainder int)\n\n" ++
    "client oneway progress(percent uint8)\n"))

def log : Procedure :=
  { name := "log", side := .server, oneway := true, args := [⟨"text", .builtin .string⟩],
    rets := [], line := 3 }

def operands : List Param := [⟨"a", .builtin .int⟩, ⟨"b", .builtin .int⟩]

def addition : Procedure :=
  { name := "add", side := .server, oneway := false, args := operands,
    rets := [⟨"c", .builtin .int⟩], line := 4 }

def division : Procedure :=
  { name := "divide", side := .server, oneway := false, args := operands,
    rets := [⟨"quotient", .builtin .int⟩, ⟨"remainder", .builtin .int⟩], line := 5 }

def progress : Procedure :=
  { name := "progress", side := .client, oneway := true, args := [⟨"percent", .builtin .uint8⟩],
    rets := [], line := 7 }

def service : Service :=
  [log, addition, division, progress].foldl Service.addProcedure (Service.named "calc")

theorem parse_source : Service.parse source = .ok service :=
  eq_ok_of_toOption (by decide +kernel)

/-! ### What is asked and answered -/

/-- What the members of a payload give for a 64-bit integer: the integer, or nothing for 0. -/
def Operand (members : List (String × Json)) (name : String) (n : Int64) : Prop :=
  (Payload.valueOf? name members).getD (number 0) = number n

def Operate (data : Option Json) (a b : Int64) : Prop :=
  ∃ members, Payload.Holds data members ∧ Operand members "a" a ∧ Operand members "b" b

/-- A frame with a request for an operation on two integers. -/
def Poses (payload : Bytes) (operation : String) (id : CallbackId) (a b : Int64) : Prop :=
  ∃ request, Envelope.ofBytes? payload = some request ∧ request.kind = .request ∧
    request.procedure = operation ∧ request.callbackId = id ∧ Operate request.data a b

def results (id : CallbackId) (members : List (String × Json)) : Envelope :=
  { kind := .response, procedure := "", callbackId := id, data := some (.object members),
    error := none }

def failure (id : CallbackId) (message : String) : Envelope :=
  { kind := .response, procedure := "", callbackId := id, data := none,
    error := some ⟨"errorReturned", message⟩ }

def reportRequest (percent : UInt8) : Envelope :=
  { kind := .request, procedure := "progress", callbackId := .none,
    data := some (.object [("percent", (Progress.mk percent).toJson)]), error := none }

/-- The calls that report on a division, the first of them with the given ticket. -/
def reports (ticket : Nat) : List Call :=
  [⟨ticket, progress, (Progress.mk 50).toValues⟩,
    ⟨ticket + 1, progress, (Progress.mk 100).toValues⟩]

/-- A serving connection answers a frame like this, and its handler asks for these commands, as long
as the response can be written. -/
def Answers (c : Connection σ) (payload : Bytes) (response : Envelope) (commands : List Command) :
    Prop :=
  c.phase = .serving → c.outlet.refuse? response.toBytes = none →
    c.Answered payload response commands

/-- The reports that a division has queued on a connection. -/
structure Reports (d : Connection σ) (ahead ticket : Nat) : Prop where
  /-- The one of half of the work comes first, if one is written at all. -/
  order : ∀ later, Trace.requestsOf [ticket, ticket + 1] (d.run later).2 <+:
    [(ticket, reportRequest 50), (ticket + 1, reportRequest 100)]
  /-- Both are written when the connection goes on and their turns have come. -/
  written : ∀ later, (d.run later).1.phase = .serving → ahead + 2 ≤ later.count .command →
    Trace.requestsOf [ticket, ticket + 1] (d.run later).2 =
      [(ticket, reportRequest 50), (ticket + 1, reportRequest 100)]

/-- How the handlers of the calculator may end. -/
inductive Ends (procedure : Procedure) : Outcome → Prop
  | returned {values : Values} (fits : values.Fits procedure.rets) :
      Ends procedure (.returned values)
  | overflow (operation : procedure.name = "add") : Ends procedure (.failed "integer overflow")
  | byZero (operation : procedure.name = "divide") : Ends procedure (.failed "division by zero")

/-- The errors in the responses of the calculator. -/
inductive Reported : RemoteError → Prop
  | overflow : Reported ⟨"errorReturned", "integer overflow"⟩
  | byZero : Reported ⟨"errorReturned", "division by zero"⟩

/-- What the calculator does at one end of a connection, given what has happened there so far. -/
structure Calculates (c : Connection σ) (t : List Effect) : Prop where
  /-- What passes the check has two operands. -/
  operands : ∀ {data v}, conform operands data = .ok v → ∃ a b, Operate data a b
  adds : ∀ {payload id a b} {sum : Int64}, Poses payload "add" id a b →
    sum.toInt = a.toInt + b.toInt → Answers c payload (results id [("c", number sum)]) []
  overflows : ∀ {payload id a b}, Poses payload "add" id a b →
    (a.toInt + b.toInt < -2 ^ 63 ∨ 2 ^ 63 ≤ a.toInt + b.toInt) →
      Answers c payload (failure id "integer overflow") []
  byZero : ∀ {payload id a b}, Poses payload "divide" id a b → b = 0 →
    Answers c payload (failure id "division by zero") []
  divides : ∀ {payload id a b}, Poses payload "divide" id a b → b ≠ 0 →
    ∃ quotient remainder, Divides a b quotient remainder ∧
      Answers c payload
        (results id [("quotient", number quotient), ("remainder", number remainder)])
        ((reports c.nextTicket).map .call)
  reports : ∀ {payload response}, c.Answered payload response ((reports c.nextTicket).map .call) →
    Reports (c.step (.arrival (.frame payload))).1 c.queue.length c.nextTicket
  outcomes : ∀ name args outcome, .handled name args outcome ∈ t →
    ∃ procedure, (service.procedures .server).find? name = some procedure ∧ Ends procedure outcome
  errors : ∀ response ∈ Trace.responses t, ∀ error, response.error = some error → Reported error

/-! ### Operands -/

theorem accepts_number (n : Int64) : (DataType.builtin .int).accepts (number n) :=
  DataType.accepts_iff_admits.mpr (.integer rfl n.le_toInt (Int.le_sub_one_of_lt n.toInt_lt))

theorem get_number {v : Values} {name : String} {n : Int64}
    (found : v.find? name = some (number n)) : v.get name (.int .i64) = .ok n.toInt := by
  rw [Values.get, found]
  exact Shape.readInt_eq_ok_iff.mpr ⟨holds_i64_iff.mpr ⟨n.le_toInt, n.toInt_lt⟩, _, rfl⟩

/-- The record of two operands is read whatever else there is. -/
theorem ofValues_of_find? {v : Values} {a b : Int64} (ha : v.find? "a" = some (number a))
    (hb : v.find? "b" = some (number b)) : Operands.ofValues v = .ok ⟨a, b⟩ := by
  have record : v.checkRecord Operands.fields = .ok () := by
    refine Values.checkRecord_of_get ?_
    simp only [Operands.fields, List.forall_mem_cons]
    exact ⟨⟨_, get_number ha⟩, ⟨_, get_number hb⟩, List.forall_mem_nil _⟩
  have decoded : Operands.ofValues v = .ok ⟨.ofInt a.toInt, .ofInt b.toInt⟩ := by
    rw [Operands.ofValues, record, get_number ha, get_number hb]
    rfl
  rw [decoded, Int64.ofInt_toInt, Int64.ofInt_toInt]

theorem distinct_operands : (operands.map (·.name)).Nodup := by decide

theorem suits_of_operand {members : List (String × Json)} {name : String} {n : Int64}
    (operand : Operand members name n) : Payload.Suits members ⟨name, .builtin .int⟩ := by
  intro value given
  rw [Operand, given, Option.getD_some] at operand
  rw [operand]
  exact DataType.accepts_iff_admits.mp (accepts_number n)

theorem exists_operand_of_suits {members : List (String × Json)} {name : String}
    (suits : Payload.Suits members ⟨name, .builtin .int⟩) : ∃ n, Operand members name n := by
  cases given : Payload.valueOf? name members with
  | none => exact ⟨0, by rw [Operand, given]; rfl⟩
  | some value =>
      cases suits value given with
      | @integer _ _ _ n _ range low high =>
          obtain ⟨rfl, rfl⟩ := Prod.mk.inj (Option.some.inj range)
          have same : (Int64.ofInt n).toInt = n :=
            Int64.toInt_ofInt_of_le low (Int.lt_of_le_sub_one high)
          refine ⟨.ofInt n, ?_⟩
          rw [Operand, given, Option.getD_some]
          simp only [number, same, Json.ofInt]

/-- Data with two integers passes the check and is read as the two. -/
theorem conform_of_operate {data : Option Json} {a b : Int64} (operate : Operate data a b) :
    ∃ v, conform operands data = .ok v ∧ Operands.ofValues v = .ok ⟨a, b⟩ := by
  obtain ⟨members, holds, ha, hb⟩ := operate
  have suits : ∀ p ∈ operands, Payload.Suits members p := by
    simp only [operands, List.forall_mem_cons]
    exact ⟨suits_of_operand ha, suits_of_operand hb, List.forall_mem_nil _⟩
  obtain ⟨v, passed⟩ := (Payload.exists_conform_iff distinct_operands).mpr ⟨members, holds, suits⟩
  obtain ⟨_, values⟩ := Payload.values_of_conform distinct_operands passed holds
  simp only [operands, List.forall_mem_cons] at values
  obtain ⟨first, second, _⟩ := values
  exact ⟨v, passed, ofValues_of_find? (first.trans (congrArg some ha))
    (second.trans (congrArg some hb))⟩

/-- There is nothing else that passes. -/
theorem operate_of_conform {data : Option Json} {v : Values}
    (passed : conform operands data = .ok v) :
    ∃ a b, Operate data a b ∧ Operands.ofValues v = .ok ⟨a, b⟩ := by
  obtain ⟨members, holds, suits⟩ := (Payload.exists_conform_iff distinct_operands).mp ⟨v, passed⟩
  simp only [operands, List.forall_mem_cons] at suits
  obtain ⟨first, second, _⟩ := suits
  obtain ⟨a, ha⟩ := exists_operand_of_suits first
  obtain ⟨b, hb⟩ := exists_operand_of_suits second
  have operate : Operate data a b := ⟨members, holds, ha, hb⟩
  obtain ⟨w, same, read⟩ := conform_of_operate operate
  obtain rfl : w = v := Except.ok.inj (same.symm.trans passed)
  exact ⟨a, b, operate, read⟩

/-! ### Runs of the handlers -/

def client : Peer := { service, side := .client }

theorem entries_service : (service.procedures .server).entries =
    [("add", addition), ("divide", division), ("log", log)] := by decide +kernel

theorem eq_of_find?_service {name : String} {procedure : Procedure}
    (found : (service.procedures .server).find? name = some procedure) :
    procedure = addition ∨ procedure = division ∨ procedure = log := by
  have listed := Table.find?_eq_some_iff.mp found
  simp only [entries_service, List.mem_cons, Prod.mk.injEq, List.not_mem_nil, or_false] at listed
  obtain ⟨_, same⟩ | ⟨_, same⟩ | ⟨_, same⟩ := listed
  · exact .inl same
  · exact .inr (.inl same)
  · exact .inr (.inr same)

theorem wellFormed_service : service.WellFormed := Service.wellFormed_of_parse parse_source

theorem fits_progress (p : Progress) : p.toValues.Fits progress.args where
  typed := by
    refine List.forall_mem_singleton.mpr ⟨p.toJson, Values.find?_insert .., ?_⟩
    have high : (p.percent.toNat : Int) ≤ 1 <<< 8 - 1 := Int.le_sub_one_of_lt
      (Int.ofNat_lt.mpr p.percent.toNat_lt)
    exact DataType.accepts_iff_admits.mpr (.integer rfl (Int.natCast_nonneg _) high)
  declared := by
    intro name value found
    rw [Progress.toValues, Values.find?_insert] at found
    split at found
    next same => exact ⟨_, List.mem_singleton_self _, same.symm⟩
    next => cases found

theorem prepare_progress (p : Progress) :
    client.prepare "progress" p.toValues = .ok (progress, p.toValues) := by
  have found : (client.service.procedures client.side).find? "progress" = some progress := by
    decide +kernel
  simp only [Peer.prepare, found, conform_toJson (wellFormed_service.procedure found).args
    (fits_progress p)]

theorem report_eq (percent : UInt8) : report client percent =
    ([.call "progress" (Progress.mk percent).toValues], none) := by
  simp only [report, Session.call, prepare_progress]
  rfl

section

variable {args : Values} {o : Operands}

theorem run_log (peer : Peer) {text : String} (read : args.get "text" .string = .ok text) :
    run peer log args = ([], .returned .empty) := by
  simp only [run, log, read]

theorem run_addition (peer : Peer) (read : Operands.ofValues args = .ok o) :
    run peer addition args = ([], add o) := by
  simp only [run, addition, read]

theorem run_division (read : Operands.ofValues args = .ok o) :
    run client division args = if o.b = 0 then ([], .failed "division by zero") else
      ([.call "progress" (Progress.mk 50).toValues, .call "progress" (Progress.mk 100).toValues],
        .returned (quotientValues (o.a / o.b) (o.a % o.b))) := by
  simp only [run, division, read, divide, report_eq]
  rfl

end

/-! ### Responses -/

theorem find?_addition : (service.procedures .server).find? addition.name = some addition := by
  decide +kernel

theorem find?_division : (service.procedures .server).find? division.name = some division := by
  decide +kernel

theorem fits_sum (c : Int64) : (sumValues c).Fits addition.rets where
  typed := List.forall_mem_singleton.mpr ⟨number c, Values.find?_insert .., accepts_number c⟩
  declared := by
    intro name value found
    rw [sumValues, Values.find?_insert] at found
    split at found
    next same => exact ⟨_, List.mem_singleton_self _, same.symm⟩
    next => cases found

theorem fits_quotient (quotient remainder : Int64) :
    (quotientValues quotient remainder).Fits division.rets where
  typed := by
    simp only [division, List.forall_mem_cons]
    exact ⟨⟨number quotient, rfl, accepts_number quotient⟩,
      ⟨number remainder, rfl, accepts_number remainder⟩, List.forall_mem_nil _⟩
  declared := by
    intro name value found
    rw [quotientValues, Values.find?_insert, Values.find?_insert] at found
    split at found
    next same => exact ⟨_, List.mem_cons_of_mem _ List.mem_cons_self, same.symm⟩
    next =>
      split at found
      next same => exact ⟨_, List.mem_cons_self, same.symm⟩
      next => cases found

theorem responseTo_sum (id : CallbackId) (c : Int64) :
    Connection.responseTo id addition (.returned (sumValues c)) =
      some (results id [("c", number c)]) := by
  simp only [Connection.responseTo,
    conform_toJson (wellFormed_service.procedure find?_addition).rets (fits_sum c)]
  rfl

theorem responseTo_quotient (id : CallbackId) (quotient remainder : Int64) :
    Connection.responseTo id division (.returned (quotientValues quotient remainder)) =
      some (results id [("quotient", number quotient), ("remainder", number remainder)]) := by
  simp only [Connection.responseTo, conform_toJson
    (wellFormed_service.procedure find?_division).rets (fits_quotient quotient remainder)]
  rfl

/-! ### At an end of a connection -/

/-- The connection is one that the calculator serves. -/
structure Serves (c : Connection σ) : Prop where
  handlers : c.session = session
  definition : c.service = service
  side : c.side = .server

namespace Serves

variable {c : Connection σ}

theorem peer (h : Serves c) : c.peer = client := by
  rw [Connection.peer, h.definition, h.side]
  rfl

theorem runs (h : Serves c) {request : Envelope} {procedure : Procedure} {args : Values}
    (found : (service.procedures .server).find? request.procedure = some procedure)
    (passed : conform procedure.args request.data = .ok args) :
    Connection.Runs c request procedure args
      { state := c.state, requests := (run client procedure args).1,
        outcome := (run client procedure args).2 } where
  find := by rw [h.definition, h.side, found]
  conform := passed
  handle := by
    rw [h.handlers, h.peer]
    rfl

/-- An operation is answered as its handler ends. -/
theorem answers (h : Serves c) {payload : Bytes} {id : CallbackId} {a b : Int64}
    {procedure : Procedure} (poses : Poses payload procedure.name id a b)
    (found : (service.procedures .server).find? procedure.name = some procedure)
    (own : procedure.args = operands) (twoWay : procedure.oneway = false) {requests : List Request}
    {outcome : Outcome} (ran : ∀ {args}, Operands.ofValues args = .ok ⟨a, b⟩ →
      run client procedure args = (requests, outcome)) {response : Envelope}
    (responds : Connection.responseTo id procedure outcome = some response)
    {commands : List Command} (asked : c.phase = .serving →
      Trace.commands (c.submit requests).2 = commands) : Answers c payload response commands := by
  intro serving writable
  obtain ⟨request, read, kind, name, rfl, operate⟩ := poses
  obtain ⟨args, passed, decoded⟩ := conform_of_operate operate
  rw [← own] at passed
  have runs := h.runs (name ▸ found) passed
  rw [ran decoded] at runs
  rw [← asked serving]
  exact Connection.answered_of_runs serving read kind runs twoWay responds writable

theorem answers_add (h : Serves c) {payload : Bytes} {id : CallbackId} {a b : Int64}
    (poses : Poses payload "add" id a b) {response : Envelope}
    (responds : Connection.responseTo id addition (add ⟨a, b⟩) = some response) :
    Answers c payload response [] :=
  h.answers poses find?_addition rfl rfl (fun read => run_addition client read) responds
    fun _ => rfl

theorem commands_of_reports (h : Serves c) (accepts : c.accepts = true) :
    Trace.commands (c.submit [.call "progress" (Progress.mk 50).toValues,
      .call "progress" (Progress.mk 100).toValues]).2 = (reports c.nextTicket).map .call := by
  change Trace.commands (c.submit ((reports c.nextTicket).map
    fun call => .call call.procedure.name call.args)).2 = _
  refine Connection.commands_submit accepts ?_ rfl
  rw [h.peer]
  simp only [reports, List.forall_mem_cons]
  exact ⟨prepare_progress _, prepare_progress _, List.forall_mem_nil _⟩

/-- The reports of a division are written in their turns. -/
theorem reports_written {t : List Effect} {sent : List Sent} {rest : List Command}
    (sending : Connection.Sending c t sent rest) (accounts : Connection.Accounts c t)
    {payload : Bytes} {response : Envelope}
    (answered : c.Answered payload response ((reports c.nextTicket).map .call)) :
    Reports (c.step (.arrival (.frame payload))).1 c.queue.length c.nextTicket := by
  have oneway : ∀ call ∈ reports c.nextTicket, call.procedure.oneway = true := by
    simp only [reports, List.forall_mem_cons]
    exact ⟨rfl, rfl, List.forall_mem_nil _⟩
  have drains := answered.drains sending accounts oneway
  exact ⟨drains.order, drains.all⟩

end Serves

/-! ### Everything that is seen -/

theorem ends_add (o : Operands) : Ends addition (add o) := by
  obtain ⟨c, sum⟩ | outside := exists_sum_or_overflow o
  · rw [add_of_fits sum]
    exact .returned (fits_sum c)
  · rw [add_of_overflow outside]
    exact .overflow rfl

theorem ends_log {data : Option Json} {args : Values} (passed : conform log.args data = .ok args) :
    Ends log (run client log args).2 := by
  have found : (service.procedures .server).find? log.name = some log := by decide +kernel
  have fits := fits_of_conform (wellFormed_service.procedure found).args passed
  obtain ⟨value, given, accepted⟩ := fits.typed _ (List.mem_singleton_self _)
  obtain ⟨text, read⟩ := (readAlike given).accepted.mp accepted
  rw [run_log client read]
  exact .returned ⟨List.forall_mem_nil _, nofun⟩

/-- The handlers of the calculator end in results or in one of two errors. -/
theorem ends_run {procedure : Procedure} {name : String} {data : Option Json} {args : Values}
    (found : (service.procedures .server).find? name = some procedure)
    (passed : conform procedure.args data = .ok args) :
    Ends procedure (run client procedure args).2 := by
  obtain rfl | rfl | rfl := eq_of_find?_service found
  · obtain ⟨a, b, _, read⟩ := operate_of_conform passed
    rw [run_addition client read]
    exact ends_add ⟨a, b⟩
  · obtain ⟨a, b, _, read⟩ := operate_of_conform passed
    rw [run_division read]
    split
    next => exact .byZero rfl
    next => exact .returned (fits_quotient _ _)
  · exact ends_log passed

/-- A response has no error but that in which its handler has ended. -/
theorem reported_of_ends {procedure : Procedure} (wf : procedure.WellFormed) {outcome : Outcome}
    (ends : Ends procedure outcome) {id : CallbackId} {response : Envelope}
    (responds : Connection.responseTo id procedure outcome = some response) {error : RemoteError}
    (reports : response.error = some error) : Reported error := by
  cases ends with
  | returned fits =>
      simp only [Connection.responseTo, conform_toJson wf.rets fits] at responds
      obtain rfl := Option.some.inj responds
      cases reports
  | overflow _ =>
      obtain rfl := Option.some.inj responds
      obtain rfl := Option.some.inj reports
      exact .overflow
  | byZero _ =>
      obtain rfl := Option.some.inj responds
      obtain rfl := Option.some.inj reports
      exact .byZero

/-- What may be seen of the calculator. -/
def Seen : Effect → Prop
  | .handled name _ outcome =>
    ∃ procedure, (service.procedures .server).find? name = some procedure ∧ Ends procedure outcome
  | .responded response => ∀ error, response.error = some error → Reported error
  | _ => True

theorem seen_of_stems {d : Connection σ} (h : Serves d) {effect : Effect}
    (stems : Connection.Stems d effect) : Seen effect := by
  have ended : ∀ {request procedure args run}, Connection.Runs d request procedure args run →
      (service.procedures .server).find? request.procedure = some procedure ∧
        Ends procedure run.outcome := by
    intro request procedure args run runs
    have found := runs.find
    rw [h.definition, h.side] at found
    obtain rfl : _ = run := (h.runs found runs.conform).handle.symm.trans runs.handle
    exact ⟨found, ends_run found runs.conform⟩
  cases stems with
  | received => trivial
  | handled runs =>
      obtain ⟨found, ends⟩ := ended runs
      exact ⟨_, wellFormed_service.name found ▸ found, ends⟩
  | responded runs responds =>
      obtain ⟨found, ends⟩ := ended runs
      exact fun error => reported_of_ends (wellFormed_service.procedure found) ends responds

/-! ### Every run -/

theorem Serves.calculates {c : Connection σ} {t : List Effect} (own : Serves c)
    {sent : List Sent} {rest : List Command} (sending : Connection.Sending c t sent rest)
    (accounts : Connection.Accounts c t) (peers : c.hasPeers = true)
    (seen : ∀ effect ∈ t, effect.isServing = true → Seen effect) : Calculates c t := by
  have accepts : c.phase = .serving → c.accepts = true := by
    intro serving
    rw [Connection.accepts, Connection.not_isOver_of_serving serving, peers]
    rfl
  constructor
  case operands =>
    intro data v passed
    obtain ⟨a, b, operate, _⟩ := operate_of_conform passed
    exact ⟨a, b, operate⟩
  case adds =>
    intro payload id a b sum poses fits
    refine own.answers_add poses ?_
    rw [add_of_fits (o := ⟨a, b⟩) fits]
    exact responseTo_sum id sum
  case overflows =>
    intro payload id a b poses outside
    refine own.answers_add poses ?_
    rw [add_of_overflow (o := ⟨a, b⟩) outside]
    rfl
  case byZero =>
    intro payload id a b poses zero
    exact own.answers poses find?_division rfl rfl
      (fun read => (run_division read).trans (if_pos zero)) rfl fun _ => rfl
  case divides =>
    intro payload id a b poses nonzero
    refine ⟨a / b, a % b, Calculator.divides nonzero, ?_⟩
    exact own.answers poses find?_division rfl rfl
      (fun read => (run_division read).trans (if_neg nonzero)) (responseTo_quotient id _ _)
      fun serving => own.commands_of_reports (accepts serving)
  case reports => exact fun answered => Serves.reports_written sending accounts answered
  case outcomes => exact fun name args outcome handled => seen _ handled rfl
  case errors =>
    intro response responded error
    obtain ⟨effect, hmem, shows⟩ := Trace.mem_view.mp responded
    cases effect with
    | responded other =>
        obtain rfl := Option.some.inj shows
        exact seen _ hmem rfl error
    | _ => cases shows

/-- Whatever has happened before, the calculator adds and divides as it should: exactly where the
result fits, and with the errors of the arithmetic and no others where there is none. Its session
has a peer of its own, so the last peer is not given up. -/
theorem answers_are_exact (outlet : Outlet) (state : σ) {events : List Event}
    (held : .peersGone ∉ events) : Service.parse source = .ok service ∧
      Calculates ((Connection.start session service .server outlet state).run events).1
        ((Connection.start session service .server outlet state).run events).2 := by
  refine ⟨parse_source, ?_⟩
  have begun := Connection.Sending.start session service .server outlet state
  have opened := Connection.Accounts.start session service .server outlet state
  have serves : ∀ {d}, Connection.Fixed (Connection.start session service .server outlet state) d →
      Serves d := fun fixed => ⟨fixed.session, fixed.service, fixed.side⟩
  obtain ⟨_, _, sending⟩ := begun.run opened events
  refine (serves (Connection.fixed_run _ events)).calculates sending (opened.run events)
    (Connection.hasPeers_run held) ?_
  exact Connection.seen_run (fun d fixed effect => seen_of_stems (serves fixed)) events

/-- A request for the division of -7 by 2, with a member that nobody has asked for. -/
def halve : Envelope :=
  .request "divide" ⟨7⟩
    (((Values.empty.insert "a" (.ofInt (-7))).insert "b" (.ofInt 2)).insert "note" .null)

/-- One division has been answered, and half of it reported. Another is asked for. -/
theorem answers_are_exact_halve :
    let events : List Event := [.arrival (.frame halve.toBytes), .command]
    let result := (Connection.start session service .server ⟨1000, true⟩ ()).run events
    .peersGone ∉ events ∧ Calculates result.1 result.2 ∧
      Poses halve.toBytes "divide" ⟨7⟩ (-7) 2 ∧ result.1.Answered halve.toBytes
        (results ⟨7⟩ [("quotient", .ofInt (-3)), ("remainder", .ofInt (-1))])
        ((reports 2).map .call) := by
  intro events result
  have held : .peersGone ∉ events := by simp [events]
  have calculates : Calculates result.1 result.2 := (answers_are_exact ⟨1000, true⟩ () held).2
  have poses : Poses halve.toBytes "divide" ⟨7⟩ (-7) 2 :=
    ⟨halve, by decide +kernel, rfl, rfl, rfl, _, .object _, rfl, rfl⟩
  obtain ⟨_, _, divides, answers⟩ := calculates.divides poses (by decide)
  obtain ⟨rfl, rfl⟩ := divides.unique (by decide)
  have next : result.1.nextTicket = 2 := by decide +kernel
  rw [next] at answers
  exact ⟨held, calculates, poses, answers (by decide +kernel) (by decide +kernel)⟩

end DuplexRpc.Calculator
