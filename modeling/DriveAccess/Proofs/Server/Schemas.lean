import DriveAccess.Proofs.Courses
import DriveAccess.Proofs.Server.Confinement
import DriveAccess.Proofs.Server.Statements
import DriveAccess.Proofs.Server.Texts
import DriveAccess.Sql.Factory
import DriveAccess.Sql.Schema
import Mathlib.Algebra.Ring.Nat
import Mathlib.Logic.Function.Basic
/-!
A schema for each tenant: the names of schemas, and what is sent to the server within one.
-/
namespace DriveAccess

/-! Hexadecimal digits. -/

theorem digitValue?_hexDigit : ∀ d < 16, digitValue? (hexDigit d) = some d := by decide

theorem number?_append_hexDigit {digits : List Char} {d : Nat} (hd : d < 16) :
    number? 16 (digits ++ [hexDigit d]) = (number? 16 digits).map (16 * · + d) := by
  rw [number?, List.foldlM_append, ← number?]
  cases number? 16 digits <;> simp [digitValue?_hexDigit d hd, hd]

theorem length_hexDigits (n value : Nat) : (hexDigits n value).length = n := by
  induction n generalizing value with
  | zero => rfl
  | succ n ih => simp [hexDigits, ih]

/-- Digits are read as the number that they were written for, as far as they reach. -/
theorem number?_hexDigits (n value : Nat) :
    number? 16 (hexDigits n value) = some (value % 16 ^ n) := by
  induction n generalizing value with
  | zero => simp [hexDigits, number?, Nat.mod_one]
  | succ n ih =>
    rw [hexDigits, number?_append_hexDigit (Nat.mod_lt _ (by decide)), ih, Nat.pow_succ',
      Nat.mod_mul, Option.map_some, Nat.add_comm]

theorem mem_hexDigits {n value : Nat} {c : Char} (h : c ∈ hexDigits n value) :
    ∃ d < 16, c = hexDigit d := by
  induction n generalizing value with
  | zero => simp [hexDigits] at h
  | succ n ih =>
    obtain h | h := List.mem_append.mp h
    · exact ih h
    · exact ⟨_, Nat.mod_lt _ (by decide), List.mem_singleton.mp h⟩

theorem Uuid.digits_injective : Function.Injective Uuid.digits := by
  intro u v h
  have hnumber := congrArg (number? 16) h
  rw [digits, digits, number?_hexDigits, number?_hexDigits, Option.some.injEq] at hnumber
  have hu := u.bits.isLt
  have hv := v.bits.isLt
  rw [Nat.mod_eq_of_lt (by omega), Nat.mod_eq_of_lt (by omega)] at hnumber
  cases u
  cases v
  exact congrArg Uuid.mk (BitVec.eq_of_toNat_eq hnumber)

/-! Names of schemas. -/

/-- The hexadecimal digits of both cases. -/
def hexAlphabet : List Char := "0123456789abcdefABCDEF".toList

theorem toNat_lt_of_isDigitIn {c : Char} (h : isDigitIn 16 c) : c.toNat < 103 := by
  rw [isDigitIn, digitValue?] at h
  by_contra hge
  rw [if_neg (by omega), if_neg (by omega), if_neg (by omega)] at h
  cases h

theorem mem_hexAlphabet {c : Char} (h : isDigitIn 16 c) : c ∈ hexAlphabet := by
  have hsmall : ∀ n < 103, isDigitIn 16 (Char.ofNat n) → Char.ofNat n ∈ hexAlphabet := by decide
  have hc := toNat_lt_of_isDigitIn h
  rw [← Char.ofNat_toNat c] at h ⊢
  exact hsmall _ hc h

theorem isDigitIn_hexDigit : ∀ d < 16, isDigitIn 16 (hexDigit d) := by decide

theorem utf8ByteSize_of_ascii {chars : List Char} (h : ∀ c ∈ chars, c.toNat < 128) :
    (String.ofList chars).utf8ByteSize = chars.length := by
  induction chars with
  | nil => rfl
  | cons c chars ih =>
    obtain ⟨hc, hchars⟩ := List.forall_mem_cons.mp h
    have hsize : c.utf8Size = 1 := Char.utf8Size_eq_one_iff.mpr (by
      rw [UInt32.le_iff_toNat_le]
      exact Nat.le_of_lt_succ hc)
    rw [String.ofList_cons, String.utf8ByteSize_append, String.utf8ByteSize_singleton, ih hchars,
      hsize, List.length_cons, Nat.add_comm]

/-- What is accepted as the name of a schema: the prefix of all of them and 32 digits. -/
theorem isSchemaName_iff {name : String} : isSchemaName name ↔
    ∃ digits : List Char, name = "tenant_" ++ String.ofList digits ∧ digits.length = 32 ∧
      ∀ c ∈ digits, isDigitIn 16 c := by
  have hsize (digits : List Char) (h : ∀ c ∈ digits, isDigitIn 16 c) :
      ("tenant_" ++ String.ofList digits).utf8ByteSize = 7 + digits.length := by
    rw [String.utf8ByteSize_append, @utf8ByteSize_of_ascii digits]
    · rfl
    · exact fun c hc => (toNat_lt_of_isDigitIn (h c hc)).trans (by decide)
  simp only [isSchemaName, Bool.and_eq_true, beq_iff_eq, List.all_eq_true]
  constructor
  · rintro ⟨⟨hstart, hbytes⟩, hdigits⟩
    have hname : name = "tenant_" ++ String.ofList (name.toList.drop 7) := by
      apply String.toList_inj.mp
      rw [String.toList_append, ← hstart, String.toList_ofList, List.take_append_drop]
    refine ⟨name.toList.drop 7, hname, ?_, hdigits⟩
    rw [hname, hsize _ hdigits] at hbytes
    omega
  · rintro ⟨digits, rfl, hlength, hdigits⟩
    have hchars : ("tenant_" ++ String.ofList digits).toList = "tenant_".toList ++ digits :=
      String.toList_append.trans (congrArg _ String.toList_ofList)
    rw [hsize digits hdigits, hchars]
    exact ⟨⟨rfl, by omega⟩, hdigits⟩

theorem validateSchemaName_iff {name : String} :
    validateSchemaName name = .ok () ↔ isSchemaName name := by
  rw [validateSchemaName]
  split <;> simp [*]

theorem isSchemaName_schemaName (tenant : Uuid) : isSchemaName (schemaName tenant) := by
  refine isSchemaName_iff.mpr ⟨tenant.digits, rfl, length_hexDigits 32 _, fun c hc => ?_⟩
  obtain ⟨d, hd, rfl⟩ := mem_hexDigits hc
  exact isDigitIn_hexDigit d hd

theorem schemaName_injective : Function.Injective schemaName := by
  intro tenant tenant' h
  rw [schemaName, schemaName, String.append_right_inj] at h
  exact Uuid.digits_injective (String.ofList_injective h)

/-- The name of a schema lacks a letter that the names of all tables have. -/
theorem not_mem_schemaName (tenant : Uuid) : 's' ∉ (schemaName tenant).toList := by
  intro hmem
  rw [schemaName, String.toList_append, List.mem_append] at hmem
  obtain hstart | hdigit := hmem
  · revert hstart
    decide
  · rw [Uuid.simple, String.toList_ofList] at hdigit
    obtain ⟨d, hd, hc⟩ := mem_hexDigits hdigit
    have hnone : ∀ d < 16, hexDigit d ≠ 's' := by decide
    exact hnone d hd hc.symm

/-! Schemas remembered. -/

namespace Factory

/-- Provisions tenants one after the other. A failure leaves what is remembered as it is. -/
def provisionAll (f : Factory) (x : Exchange) : List (Uuid × String) → Factory × Exchange
  | [] => (f, x)
  | (tenant, name) :: rest =>
    match (f.provision tenant name).run Exchange.answer x with
    | (.ok f, x) => f.provisionAll x rest
    | (.error _, x) => f.provisionAll x rest

/-- Every schema remembered is the one named after its tenant. -/
def Faithful (f : Factory) : Prop := ∀ p ∈ f.schemas, p.2 = schemaName p.1

variable {f : Factory}

theorem Faithful.remember (h : f.Faithful) (tenant : Uuid) :
    (f.remember tenant (schemaName tenant)).Faithful := by
  intro p hp
  obtain rfl | hp := List.mem_cons.mp hp
  · rfl
  · exact h p (List.mem_of_mem_filter hp)

theorem Faithful.provision (h : f.Faithful) {tenant : Uuid} {name : String} {x x' : Exchange}
    {f' : Factory} (hrun : (f.provision tenant name).run Exchange.answer x = (.ok f', x')) :
    f'.Faithful := by
  obtain ⟨_, u, _, hpure⟩ := Dialogue.run_bind_eq_ok hrun
  cases hpure
  exact h.remember tenant

theorem Faithful.provisionAll (h : f.Faithful) (x : Exchange) (tenants : List (Uuid × String)) :
    (f.provisionAll x tenants).1.Faithful := by
  induction tenants generalizing f x with
  | nil => exact h
  | cons p rest ih =>
    obtain ⟨tenant, name⟩ := p
    rw [Factory.provisionAll]
    rcases hrun : (f.provision tenant name).run Exchange.answer x with ⟨e | f', x'⟩
    · exact ih h x'
    · exact ih (h.provision hrun) x'

theorem Faithful.schemaFor (h : f.Faithful) (tenant : Uuid) :
    f.schemaFor tenant = schemaName tenant := by
  rw [Factory.schemaFor]
  cases hlookup : f.schemas.lookup tenant with
  | none => rfl
  | some schema =>
    obtain ⟨front, back, hschemas, _⟩ := List.lookup_eq_some_iff.mp hlookup
    exact h (tenant, schema) (by simp [hschemas])

/-- Whatever tenants are provisioned, sessions are in the schemas named after their tenants. -/
theorem schemaFor_provisionAll (x : Exchange) (tenants : List (Uuid × String)) :
    ((⟨[]⟩ : Factory).provisionAll x tenants).1.schemaFor = schemaName := by
  have hnew : (⟨[]⟩ : Factory).Faithful := fun p hp => by cases hp
  exact funext (hnew.provisionAll x tenants).schemaFor

end Factory

/-! Sessions. -/

namespace Backend

/-- What a session sends for a request are the statements that its conversation asks for. -/
theorem sent_perform (stamp : Stamp) (r : Request) (schema : String) (x : Exchange) :
    ∃ row, ∃ y : Exchange, y.replies = x.replies ∧
      (database.perform stamp r schema x).2.2.sent =
        x.sent ++ ((r.conversation schema row).asked Exchange.answer y).map .statement := by
  refine ⟨⟨x.spare, stamp.time⟩, { x with spare := x.spare.next }, rfl, ?_⟩
  refine Conversation.sent_run.trans (congrArg (x.sent ++ ·) ?_)
  rw [← Dialogue.course_questions, Conversation.talk, List.map_map, List.map_map]
  rfl

theorem on_of_asked {r : Request} {schema : String} {stamp : Stamp} {x : Exchange} {s : Statement}
    (h : s ∈ (r.conversation schema stamp).asked Exchange.answer x) : s.On schema := by
  rw [← Dialogue.course_questions] at h
  obtain ⟨m, hm, rfl⟩ := List.mem_map.mp h
  exact (r.asks_on schema stamp).course m hm

/-- Requests alike send the same texts, whatever the data, as long as the answers are the same. -/
theorem sends_alike {r r' : Request} (halike : r.Alike r') (schema : String)
    (stamp stamp' : Stamp) {x x' : Exchange} (hreplies : x.replies = x'.replies) :
    ∃ sent sent' : List Statement,
      (database.perform stamp r schema x).2.2.sent = x.sent ++ sent.map .statement ∧
      (database.perform stamp' r' schema x').2.2.sent = x'.sent ++ sent'.map .statement ∧
      sent.map Statement.form = sent'.map Statement.form ∧ ∀ s ∈ sent ++ sent', s.On schema := by
  obtain ⟨row, y, hy, hsent⟩ := sent_perform stamp r schema x
  obtain ⟨row', y', hy', hsent'⟩ := sent_perform stamp' r' schema x'
  have hforms := (halike.sameForms schema row row').asked
    (hy.trans (hreplies.trans hy'.symm))
  refine ⟨_, _, hsent, hsent', hforms, fun s hs => ?_⟩
  obtain hs | hs := List.mem_append.mp hs <;> exact on_of_asked hs

/-- The statements of a session keep to the schema of its tenant and hold no data: requests alike
send the same texts, with as many parameters each. Schemas are told apart by their names, all of
which pass as names of schemas, and a tenant keeps its schema whatever tenants are provisioned. -/
theorem keeps_to_schema :
    (∀ (tenant : Uuid) (r r' : Request) (stamp stamp' : Stamp) (x x' : Exchange), r.Alike r' →
      x.replies = x'.replies → ∃ sent sent' : List Statement,
        (database.perform stamp r (schemaName tenant) x).2.2.sent =
          x.sent ++ sent.map .statement ∧
        (database.perform stamp' r' (schemaName tenant) x').2.2.sent =
          x'.sent ++ sent'.map .statement ∧
        sent.map Statement.form = sent'.map Statement.form ∧
        ∀ s ∈ sent ++ sent', Confined (schemaName tenant) s.text) ∧
    (∀ tenant, validateSchemaName (schemaName tenant) = .ok ()) ∧
    Function.Injective schemaName ∧
    (∀ name, validateSchemaName name = .ok () → ∃ digits : List Char,
      name = "tenant_" ++ String.ofList digits ∧ digits.length = 32 ∧
        ∀ c ∈ digits, c ∈ hexAlphabet) ∧
    ∀ (tenants : List (Uuid × String)) (x : Exchange),
      let f := ((⟨[]⟩ : Factory).provisionAll x tenants).1
      f.schemaFor = schemaName ∧ f.backend = database := by
  refine ⟨fun tenant r r' stamp stamp' x x' halike hreplies => ?_, ?_, schemaName_injective, ?_, ?_⟩
  · obtain ⟨sent, sent', hsent, hsent', hforms, hon⟩ :=
      sends_alike halike (schemaName tenant) stamp stamp' hreplies
    exact ⟨sent, sent', hsent, hsent', hforms, fun s hs =>
      Statement.confined_of_on (hon s hs) (not_mem_schemaName tenant)⟩
  · exact fun tenant => validateSchemaName_iff.mpr (isSchemaName_schemaName tenant)
  · intro name h
    obtain ⟨digits, hname, hlength, hdigits⟩ := isSchemaName_iff.mp (validateSchemaName_iff.mp h)
    exact ⟨digits, hname, hlength, fun c hc => mem_hexAlphabet (hdigits c hc)⟩
  · intro tenants x f
    have hschemas : f.schemaFor = schemaName := Factory.schemaFor_provisionAll x tenants
    exact ⟨hschemas, by rw [Factory.backend, hschemas, database]⟩

theorem keeps_to_schema_finding_folders :
    (Request.findFolder (.ofNat 1)).Alike (.findFolder (.ofNat 2)) ∧
      ∃ sent sent' : List Statement,
        (database.perform ⟨.ofNat 6, 0⟩ (.findFolder (.ofNat 1)) (schemaName (.ofNat 3))
          ⟨[], [], [], .ofNat 8⟩).2.2.sent = sent.map .statement ∧
        (database.perform ⟨.ofNat 7, 5⟩ (.findFolder (.ofNat 2)) (schemaName (.ofNat 3))
          ⟨[], [], [], .ofNat 9⟩).2.2.sent = sent'.map .statement ∧
        sent.map Statement.form = sent'.map Statement.form ∧
        ∀ s ∈ sent ++ sent', Confined (schemaName (.ofNat 3)) s.text :=
  ⟨.findFolder _ _, keeps_to_schema.1 (.ofNat 3) _ _ ⟨.ofNat 6, 0⟩ ⟨.ofNat 7, 5⟩
    ⟨[], [], [], .ofNat 8⟩ ⟨[], [], [], .ofNat 9⟩ (.findFolder _ _) rfl⟩

end Backend

end DriveAccess
