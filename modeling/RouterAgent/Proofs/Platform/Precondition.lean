import RouterAgent.Proofs.Host.Commands
import RouterAgent.Router

/-!
The precondition of DD-WRT: one of two settings is 1.

A lookup can fail in many ways, and what becomes of a failure is decided in three places: the store
makes some failures problems of its own, the platform notes these and goes on to the next setting,
and the router wraps what is left. So an answer of the command has one of three meanings, and the
settings are asked for up to the first answer that is not a no.
-/

namespace RouterAgent

open RouterAgent.Text

/-! ### Answers of the store -/

namespace CommandResult

/-- The command ended well and printed 1, blanks around it aside. -/
def PrintsOne (a : CommandResult) : Prop :=
  ∃ output errors, a = .ran (some output) errors 0 ∧ trim output.toList = ['1']

inductive SaysNo : CommandResult → Prop where
  | absent : SaysNo (.refused .missing)
  | slow : SaysNo .timedOut
  | failed (output : Option String) (errors : String) {code : Int} (h : code ≠ 0) :
      SaysNo (.ran output (some errors) code)
  | other {output : String} (errors : Option String) (h : trim output.toList ≠ ['1']) :
      SaysNo (.ran (some output) errors 0)

/-- The answers for which the store has no problem of its own, with the fault that they cause. -/
inductive Breaks : CommandResult → Fault → Prop where
  | refused {why : Refusal} (h : why ≠ .missing) :
      Breaks (.refused why) (.refused why SettingsStore.program)
  | noOutput (errors : Option String) :
      Breaks (.ran none errors 0) (.misfit (.lacks "NoneType" "strip"))
  | noErrors (output : Option String) {code : Int} (h : code ≠ 0) :
      Breaks (.ran output none code) (.misfit (.lacks "NoneType" "strip"))

lemma meaning (a : CommandResult) : a.PrintsOne ∨ a.SaysNo ∨ ∃ cause, a.Breaks cause := by
  cases a with
  | refused why =>
    by_cases hwhy : why = .missing
    · subst hwhy
      exact .inr (.inl .absent)
    · exact .inr (.inr ⟨_, .refused hwhy⟩)
  | timedOut => exact .inr (.inl .slow)
  | ran output errors code =>
    by_cases hcode : code = 0
    · subst hcode
      cases output with
      | none => exact .inr (.inr ⟨_, .noOutput errors⟩)
      | some output =>
        by_cases hone : trim output.toList = ['1']
        · exact .inl ⟨output, errors, rfl, hone⟩
        · exact .inr (.inl (.other errors hone))
    · cases errors with
      | none => exact .inr (.inr ⟨_, .noErrors output hcode⟩)
      | some errors => exact .inr (.inl (.failed output errors hcode))

variable {a : CommandResult} {cause : Fault} (line : String)

lemma PrintsOne.setting (h : a.PrintsOne) :
    SettingsStore.setting SettingsStore.program line a = .ok "1" := by
  obtain ⟨output, errors, rfl, hone⟩ := h
  rw [SettingsStore.setting, if_pos rfl, SettingsStore.printed, hone]

lemma SaysNo.setting (h : a.SaysNo) :
    (∃ value, SettingsStore.setting SettingsStore.program line a = .ok value ∧ value ≠ "1") ∨
    ∃ problem, SettingsStore.setting SettingsStore.program line a = .error (.store problem) := by
  cases h with
  | absent => exact .inr ⟨_, rfl⟩
  | slow => exact .inr ⟨_, rfl⟩
  | failed output errors hcode =>
    rw [SettingsStore.setting, if_neg hcode]
    exact .inr ⟨_, rfl⟩
  | @other output errors hone =>
    refine .inl ⟨String.ofList (trim output.toList), rfl, fun heq => hone ?_⟩
    rw [← String.toList_ofList (l := trim output.toList), heq]
    rfl

lemma Breaks.setting (h : a.Breaks cause) :
    SettingsStore.setting SettingsStore.program line a = .error cause := by
  cases h with
  | @refused why hwhy => cases why <;> first | rfl | exact absurd rfl hwhy
  | noOutput errors => rfl
  | noErrors output hcode => rw [SettingsStore.setting, if_neg hcode]; rfl

lemma Breaks.origin_ne (h : a.Breaks cause) : cause.origin ≠ .agent := by
  cases h <;> exact Origin.noConfusion

end CommandResult

def SettingsStore.lookUp (key : String) : String := s!"{program} get {key}"

/-- What the host answers if a setting is looked up next. -/
def Session.heard (s : Session) (key : String) : CommandResult :=
  s.world.host.answer (SettingsStore.lookUp key) 0

namespace Platform

/-! ### One setting -/

lemma setting_spec (key : String) (s : Session) :
    (setting key s).1 =
      SettingsStore.setting SettingsStore.program (SettingsStore.lookUp key) (s.heard key) ∧
    (setting key s).2.world.trace = s.world.trace ++ [.ran (SettingsStore.lookUp key)] ∧
    ∀ other, SettingsStore.lookUp other ≠ SettingsStore.lookUp key →
      (setting key s).2.heard other = s.heard other := by
  obtain ⟨hresult, htrace, hanswer, -⟩ := s.world.run_spec (SettingsStore.lookUp key)
  refine ⟨congrArg (SettingsStore.setting SettingsStore.program _) hresult, htrace,
    fun other hne => ?_⟩
  exact (hanswer _ 0).trans (by rw [if_neg hne]; rfl)

lemma isOn_fst (p : Platform) (key : String) (s : Session) :
    (p.isOn key s).1 = match (setting key s).1 with
      | .ok value => .ok (value = "1")
      | .error (.store _) => .ok false
      | .error fault => .error fault := by
  unfold isOn
  rcases setting key s with ⟨fault | value, _⟩
  · cases fault <;> rfl
  · rfl

lemma isOn_snd (p : Platform) (key : String) (s : Session) :
    ∃ log, (p.isOn key s).2.world = { (setting key s).2.world with log } := by
  unfold isOn
  rcases setting key s with ⟨fault | value, _⟩
  · cases fault <;> exact ⟨_, rfl⟩
  · exact ⟨_, rfl⟩

/-- **Asking for one setting.** A 1 is a yes, and what breaks the lookup goes through. Whatever
comes of it, the command was run once, and what is heard of other settings is as before. -/
theorem isOn_spec (p : Platform) (key : String) (s : Session) :
    ((s.heard key).PrintsOne → (p.isOn key s).1 = .ok true) ∧
    ((s.heard key).SaysNo → (p.isOn key s).1 = .ok false) ∧
    (∀ cause, (s.heard key).Breaks cause → (p.isOn key s).1 = .error cause) ∧
    (p.isOn key s).2.world.trace = s.world.trace ++ [.ran (SettingsStore.lookUp key)] ∧
    ∀ other, SettingsStore.lookUp other ≠ SettingsStore.lookUp key →
      (p.isOn key s).2.heard other = s.heard other := by
  obtain ⟨hresult, htrace, hothers⟩ := setting_spec key s
  obtain ⟨log, hworld⟩ := p.isOn_snd key s
  refine ⟨fun hone => ?_, fun hno => ?_, fun cause hbreaks => ?_, ?_, fun other hne => ?_⟩
  · rw [isOn_fst, hresult, hone.setting]
    rfl
  · rw [isOn_fst, hresult]
    obtain ⟨value, hvalue, hne⟩ | ⟨problem, hproblem⟩ := hno.setting (SettingsStore.lookUp key)
    · rw [hvalue]
      simp [hne]
    · rw [hproblem]
  · rw [isOn_fst, hresult, hbreaks.setting]
    cases cause with
    | store problem => exact absurd rfl hbreaks.origin_ne
    | _ => rfl
  · rw [hworld]
    exact htrace
  · rw [← hothers other hne, Session.heard, Session.heard, hworld]

/-! ### A row of settings -/

/-- **Settings that say no are passed over**: the others are asked for as if these had not been. -/
theorem anyOn_append (p : Platform) {keys rest : List String} {s : Session}
    (hdistinct : ((keys ++ rest).map SettingsStore.lookUp).Nodup)
    (hno : ∀ key ∈ keys, (s.heard key).SaysNo) :
    ∃ later : Session, p.anyOn (keys ++ rest) s = p.anyOn rest later ∧
      later.world.trace = s.world.trace ++ keys.map (.ran ∘ SettingsStore.lookUp) ∧
      ∀ key ∈ rest, later.heard key = s.heard key := by
  induction keys generalizing s with
  | nil => exact ⟨s, rfl, (List.append_nil _).symm, fun _ _ => rfl⟩
  | cons key keys ih =>
    obtain ⟨-, hfalse, -, htrace, hothers⟩ := p.isOn_spec key s
    rw [List.cons_append, List.map_cons, List.nodup_cons] at hdistinct
    have hheard {other : String} (hother : other ∈ keys ++ rest) :
        (p.isOn key s).2.heard other = s.heard other :=
      hothers other fun heq => hdistinct.1 (heq ▸ List.mem_map_of_mem hother)
    obtain ⟨later, hanyOn, hran, hlater⟩ := ih (s := (p.isOn key s).2) hdistinct.2 fun other h => by
      rw [hheard (List.mem_append_left rest h)]
      exact hno other (List.mem_cons_of_mem key h)
    refine ⟨later, ?_, ?_, fun other h => ?_⟩
    · have hresult := hfalse (hno key List.mem_cons_self)
      rw [List.cons_append, anyOn, ← hanyOn]
      rcases hon : p.isOn key s with ⟨result, next⟩
      rw [hon] at hresult
      obtain rfl : result = .ok false := hresult
      rfl
    · rw [hran, htrace, List.append_assoc]
      rfl
    · rw [hlater other h, hheard (List.mem_append_right keys h)]

lemma anyOn_singleton (p : Platform) (key : String) (s : Session) :
    p.anyOn [key] s = p.isOn key s := by
  rw [anyOn]
  rcases p.isOn key s with ⟨_ | _ | _, _⟩ <;> rfl

lemma anyOn_cons_of_ne {p : Platform} {key : String} {s : Session}
    (hne : (p.isOn key s).1 ≠ .ok false) (keys : List String) :
    p.anyOn (key :: keys) s = p.isOn key s := by
  rw [anyOn]
  rcases hon : p.isOn key s with ⟨_ | _ | _, _⟩
  · rfl
  · exact absurd (congrArg Prod.fst hon) hne
  · rfl

/-! ### The hook -/

lemma serve_ddwrt {r : Router} (platform : r.platform = some ddwrt) (service : Service)
    (s : Session) :
    r.serve .configureService service s =
      (match (ddwrt.anyOn journalKeys s).1 with
        | .ok true => .ok ()
        | .ok false => .error .noJournal
        | .error cause => .error (ddwrt.wrap .configureService cause),
       ⟨(ddwrt.anyOn journalKeys s).2, service⟩) := by
  have hhooks : ddwrt.hooks .configureService = [.requireJournal] := rfl
  simp only [Router.serve, Router.call, platform, call, hhooks, performAll, perform]
  rcases ddwrt.anyOn journalKeys s with ⟨_ | _ | _, _⟩ <;> rfl

variable {r : Router} {s : Session}

lemma serve_of_isOn (platform : r.platform = some ddwrt) (service : Service) {key : String}
    {later : Session} (hasked : ddwrt.anyOn journalKeys s = ddwrt.isOn key later) :
    ((later.heard key).PrintsOne → (r.serve .configureService service s).1 = .ok ()) ∧
    ((later.heard key).SaysNo →
      (r.serve .configureService service s).1 = .error .noJournal) ∧
    (∀ cause, (later.heard key).Breaks cause → (r.serve .configureService service s).1 =
      .error (.hook "ddwrt" .configureService cause)) ∧
    (r.serve .configureService service s).2.session.world.trace =
      later.world.trace ++ [.ran (SettingsStore.lookUp key)] := by
  obtain ⟨hone, hno, hbreaks, htrace, -⟩ := ddwrt.isOn_spec key later
  rw [serve_ddwrt platform, hasked]
  refine ⟨fun h => ?_, fun h => ?_, fun cause h => ?_, htrace⟩
  · rw [hone h]
  · rw [hno h]
  · have hwrap : ddwrt.wrap .configureService cause = .hook "ddwrt" .configureService cause :=
      if_neg h.origin_ne
    rw [hbreaks cause h, ← hwrap]

lemma serve_of_first (platform : r.platform = some ddwrt) (service : Service) (s : Session) :
    let first := s.heard "enable_jffs2"
    let outcome := r.serve .configureService service s
    (first.PrintsOne → outcome.1 = .ok ()) ∧
    (∀ cause, first.Breaks cause →
      outcome.1 = .error (.hook "ddwrt" .configureService cause)) ∧
    (first.PrintsOne ∨ (∃ cause, first.Breaks cause) →
      outcome.2.session.world.trace =
        s.world.trace ++ [.ran (SettingsStore.lookUp "enable_jffs2")]) := by
  obtain ⟨hone, -, hbreaks, -⟩ := ddwrt.isOn_spec "enable_jffs2" s
  have hends (hne : (ddwrt.isOn "enable_jffs2" s).1 ≠ .ok false) :=
    serve_of_isOn platform service (anyOn_cons_of_ne hne ["sys_enable_jffs2"])
  have hyes (h : (s.heard "enable_jffs2").PrintsOne) := hends (by rw [hone h]; nofun)
  have hbroken {cause : Fault} (h : (s.heard "enable_jffs2").Breaks cause) :=
    hends (by rw [hbreaks cause h]; nofun)
  refine ⟨fun h => (hyes h).1 h, fun cause h => (hbroken h).2.2.1 cause h, ?_⟩
  rintro (h | ⟨cause, h⟩)
  · exact (hyes h).2.2.2
  · exact (hbroken h).2.2.2

lemma serve_of_saysNo (platform : r.platform = some ddwrt) (service : Service)
    (hfirst : (s.heard "enable_jffs2").SaysNo) :
    let second := s.heard "sys_enable_jffs2"
    let outcome := r.serve .configureService service s
    (second.PrintsOne → outcome.1 = .ok ()) ∧
    (second.SaysNo → outcome.1 = .error .noJournal) ∧
    (∀ cause, second.Breaks cause →
      outcome.1 = .error (.hook "ddwrt" .configureService cause)) ∧
    outcome.2.session.world.trace =
      s.world.trace ++ [.ran (SettingsStore.lookUp "enable_jffs2"),
        .ran (SettingsStore.lookUp "sys_enable_jffs2")] := by
  have hdistinct : ((["enable_jffs2"] ++ ["sys_enable_jffs2"]).map SettingsStore.lookUp).Nodup := by
    decide +kernel
  obtain ⟨later, hasked, hran, hlater⟩ :=
    ddwrt.anyOn_append hdistinct (List.forall_mem_singleton.2 hfirst)
  rw [anyOn_singleton] at hasked
  have hlast := serve_of_isOn platform service hasked
  rwa [hlater _ (List.mem_singleton_self _), hran, List.append_assoc] at hlast

lemma serve_eq_noJournal (platform : r.platform = some ddwrt) (service : Service)
    (hfirst : ∀ cause, ¬(s.heard "enable_jffs2").Breaks cause)
    (hsecond : (s.heard "enable_jffs2").SaysNo →
      ∀ cause, ¬(s.heard "sys_enable_jffs2").Breaks cause)
    (hneither : ¬((s.heard "enable_jffs2").PrintsOne ∨ (s.heard "sys_enable_jffs2").PrintsOne)) :
    (r.serve .configureService service s).1 = .error .noJournal := by
  obtain h | h | ⟨cause, h⟩ := (s.heard "enable_jffs2").meaning
  · exact absurd (.inl h) hneither
  · obtain h' | h' | ⟨cause, h'⟩ := (s.heard "sys_enable_jffs2").meaning
    · exact absurd (.inr h') hneither
    · exact (serve_of_saysNo platform service h).2.1 h'
    · exact absurd h' (hsecond h cause)
  · exact absurd h (hfirst cause)

lemma serve_eq_hook_iff (platform : r.platform = some ddwrt) (service : Service) (s : Session)
    (cause : Fault) :
    (r.serve .configureService service s).1 = .error (.hook "ddwrt" .configureService cause) ↔
      (s.heard "enable_jffs2").Breaks cause ∨
      (s.heard "enable_jffs2").SaysNo ∧ (s.heard "sys_enable_jffs2").Breaks cause := by
  obtain ⟨hone, hbroken, -⟩ := serve_of_first platform service s
  refine ⟨fun herror => ?_, ?_⟩
  · obtain h | h | ⟨other, h⟩ := (s.heard "enable_jffs2").meaning
    · exact absurd (herror.symm.trans (hone h)) nofun
    · obtain ⟨hone', hno', hbroken', -⟩ := serve_of_saysNo platform service h
      obtain h' | h' | ⟨other, h'⟩ := (s.heard "sys_enable_jffs2").meaning
      · exact absurd (herror.symm.trans (hone' h')) nofun
      · exact absurd (herror.symm.trans (hno' h')) nofun
      · cases herror.symm.trans (hbroken' other h')
        exact .inr ⟨h, h'⟩
    · cases herror.symm.trans (hbroken other h)
      exact .inl h
  · rintro (h | ⟨h, h'⟩)
    · exact hbroken cause h
    · exact (serve_of_saysNo platform service h).2.2.1 cause h'

/-- **The two settings decide, as far as the lookups come to an answer.** Where they do, the hook
succeeds iff one of the settings is 1, and otherwise reports the missing journal. What breaks a
lookup is wrapped and ends the hook, the first lookup before the second is made. The second lookup
is made where the first says no, and the service stays as it is in every case. -/
theorem journal_settings_decide (platform : r.platform = some ddwrt) (service : Service)
    (s : Session) :
    let first := s.heard "enable_jffs2"
    let second := s.heard "sys_enable_jffs2"
    let outcome := r.serve .configureService service s
    ((∀ cause, ¬first.Breaks cause) → (first.SaysNo → ∀ cause, ¬second.Breaks cause) →
      (outcome.1 = .ok () ↔ first.PrintsOne ∨ second.PrintsOne) ∧
      (¬(first.PrintsOne ∨ second.PrintsOne) → outcome.1 = .error .noJournal)) ∧
    (∀ cause, outcome.1 = .error (.hook "ddwrt" .configureService cause) ↔
      first.Breaks cause ∨ first.SaysNo ∧ second.Breaks cause) ∧
    (first.PrintsOne ∨ (∃ cause, first.Breaks cause) →
      outcome.2.session.world.trace =
        s.world.trace ++ [.ran (SettingsStore.lookUp "enable_jffs2")]) ∧
    (first.SaysNo →
      outcome.2.session.world.trace =
        s.world.trace ++ [.ran (SettingsStore.lookUp "enable_jffs2"),
          .ran (SettingsStore.lookUp "sys_enable_jffs2")]) ∧
    outcome.2.service = service := by
  intro first second outcome
  obtain ⟨hone, -, hdecided⟩ := serve_of_first platform service s
  refine ⟨fun hfirst hsecond => ?_, serve_eq_hook_iff platform service s, hdecided,
    fun h => (serve_of_saysNo platform service h).2.2.2,
    congrArg (·.2.service) (serve_ddwrt platform service s)⟩
  have hjournal : ¬(first.PrintsOne ∨ second.PrintsOne) → outcome.1 = .error .noJournal :=
    serve_eq_noJournal platform service hfirst hsecond
  refine ⟨⟨fun hok => ?_, ?_⟩, hjournal⟩
  · by_contra hneither
    exact absurd (hok.symm.trans (hjournal hneither)) nofun
  · rintro (h | h')
    · exact hone h
    · obtain h | h | ⟨cause, h⟩ := first.meaning
      · exact hone h
      · exact (serve_of_saysNo platform service h).1 h'
      · exact absurd h (hfirst cause)

/-- A session on DD-WRT in which the two lookups have these answers. -/
def hearing (first second : CommandResult) : Session :=
  ⟨.start { Host.empty with
    commands := .ofList [(SettingsStore.lookUp "enable_jffs2", [first]),
      (SettingsStore.lookUp "sys_enable_jffs2", [second])] }, .ofPlatform "ddwrt"⟩

lemma heard_hearing (first second : CommandResult) :
    (hearing first second).heard "enable_jffs2" = first ∧
    (hearing first second).heard "sys_enable_jffs2" = second := by
  have hne : SettingsStore.lookUp "sys_enable_jffs2" ≠ SettingsStore.lookUp "enable_jffs2" := by
    decide +kernel
  simp [hearing, Session.heard, Host.answer, World.start, OrderedMap.ofList,
    OrderedMap.insertMany, OrderedMap.get?_insert, hne.symm]

theorem journal_settings_decide_newer :
    let s := hearing (.ran (some "") (some "unknown") 1) (.ran (some "1\n") (some "") 0)
    let outcome := (Router.mk (some ddwrt) .default).serve .configureService Router.noService s
    outcome.1 = .ok () ∧ outcome.2.session.world.trace =
      [.ran "nvram get enable_jffs2", .ran "nvram get sys_enable_jffs2"] := by
  intro s
  obtain ⟨hfirst, hsecond⟩ := heard_hearing (.ran (some "") (some "unknown") 1)
    (.ran (some "1\n") (some "") 0)
  have hno : (s.heard "enable_jffs2").SaysNo := by
    rw [hfirst]
    exact .failed _ _ (by decide)
  have hone : (s.heard "sys_enable_jffs2").PrintsOne := by
    rw [hsecond]
    exact ⟨_, _, rfl, by decide +kernel⟩
  obtain ⟨hdecide, -, -, htrace, -⟩ := journal_settings_decide (r := ⟨some ddwrt, .default⟩) rfl
    Router.noService s
  obtain ⟨hok, -⟩ := hdecide (by rw [hfirst]; nofun) fun _ => by rw [hsecond]; nofun
  exact ⟨hok.2 (.inr hone), htrace hno⟩

/-- A first lookup that breaks hides the second setting. -/
theorem journal_settings_may_be_hidden :
    ¬ ∀ (r : Router) (service : Service) (s : Session), r.platform = some ddwrt →
      ((r.serve .configureService service s).1 = .ok () ↔
        (s.heard "enable_jffs2").PrintsOne ∨ (s.heard "sys_enable_jffs2").PrintsOne) := by
  intro h
  have hresult : ((Router.mk (some ddwrt) .default).serve .configureService Router.noService
      (hearing (.refused .denied) (.ran (some "1") (some "") 0))).1 =
      .error (.hook "ddwrt" .configureService (.refused .denied "nvram")) := by
    rfl
  have hone : ((hearing (.refused .denied) (.ran (some "1") (some "") 0)).heard
      "sys_enable_jffs2").PrintsOne := by
    rw [(heard_hearing _ _).2]
    exact ⟨_, _, rfl, by decide +kernel⟩
  exact absurd (hresult.symm.trans ((h _ _ _ rfl).2 (.inr hone))) nofun

end Platform

end RouterAgent
