import RouterAgent.Config
import RouterAgent.Proofs.Backoff.Delays
import RouterAgent.Proofs.Fault.Steps

/-!
What is known of a configuration that was accepted.

Its settings are not negative and its delays not at most zero. For numbers this bounds every wait,
but `nan` is neither, so a setting that is no number is accepted too.
-/

namespace RouterAgent

open RouterAgent.Number

namespace Config

/-- The steps by which a value gives a configuration. -/
structure Parsed (raw : Value) (c : Config) : Prop where
  resolvers : ∃ root es, mapping raw = .ok root ∧ part root "upstreams" = .ok es ∧
    readResolvers es = .ok c.resolvers
  refresh : c.refresh.isNegative = false
  baseDelay : c.baseDelay.isNonpositive = false
  maxDelay : c.maxDelay.isNonpositive = false

lemma parsed {raw : Value} {c : Config} (h : parse raw = .ok c) : Parsed raw c := by
  obtain ⟨root, hroot, h⟩ := bind_eq_ok.1 h
  obtain ⟨es, hes, h⟩ := bind_eq_ok.1 h
  obtain ⟨settings, -, h⟩ := bind_eq_ok.1 h
  obtain ⟨resolvers, hresolvers, h⟩ := bind_eq_ok.1 h
  obtain ⟨refresh, -, h⟩ := bind_eq_ok.1 h
  obtain ⟨baseDelay, -, h⟩ := bind_eq_ok.1 h
  obtain ⟨maxDelay, -, h⟩ := bind_eq_ok.1 h
  obtain ⟨hrefresh, h⟩ := guard_eq_ok.1 h
  obtain ⟨hdelays, h⟩ := guard_eq_ok.1 h
  obtain rfl := pure_eq_ok.1 h
  simp only [Bool.not_eq_true, Bool.or_eq_false_iff] at hrefresh hdelays
  exact ⟨⟨root, es, hroot, hes, hresolvers⟩, hrefresh, hdelays.1, hdelays.2⟩

/-- **What an accepted configuration says of waiting.** The interval is not below zero and the
delays are above zero, each if it is a number. The delays serve for waiting, and if both are
numbers, each delay that is taken is a number above zero and at most the ceiling. A first delay that
is no number makes every delay so, and a ceiling that is none caps nothing. -/
theorem accepted_delays_are_bounded {raw : Value} {c : Config} (accepted : parse raw = .ok c) :
    (c.refresh ≠ .nan → Binary64.le .zero c.refresh = true) ∧
    (c.baseDelay ≠ .nan → Binary64.lt .zero c.baseDelay = true) ∧
    (c.maxDelay ≠ .nan → Binary64.lt .zero c.maxDelay = true) ∧
    ∃ b, Backoff.make c.settings.baseDelay c.settings.maxDelay = .ok b ∧ ∀ n,
      (c.baseDelay ≠ .nan → c.maxDelay ≠ .nan →
        Binary64.lt .zero (b.after n).next.1 = true ∧
        Binary64.le (b.after n).next.1 c.maxDelay = true) ∧
      (c.baseDelay = .nan → (b.after n).next.1 = .nan) ∧
      (c.maxDelay = .nan → (b.after n).next.1 = c.baseDelay.scale (min n Backoff.doublings)) := by
  obtain ⟨-, hrefresh, hbase, hmax⟩ := parsed accepted
  have hpos {x : Binary64} (hx : x.isNonpositive = false) (hnan : x ≠ .nan) :
      Binary64.lt .zero x = true := by
    rwa [Binary64.isNonpositive_eq_not_lt hnan, Bool.not_eq_false'] at hx
  refine ⟨fun hnan => ?_, hpos hbase, hpos hmax, ⟨c.baseDelay, c.maxDelay, 0⟩,
    Backoff.make_of_isDelay (Value.isDelay_float hbase) (Value.isDelay_float hmax), fun n => ?_⟩
  · rwa [Binary64.isNegative_eq_not_le hnan, Bool.not_eq_false'] at hrefresh
  · rw [Backoff.next_after, Nat.zero_add]
    exact ⟨fun hb hm => Backoff.delay_bounded (hpos hbase hb) (hpos hmax hm) n,
      fun hb => Backoff.delay_of_nan_base hb n, fun hm => Backoff.delay_of_nan_max hm n⟩

def delaysOnly (baseDelay maxDelay : Value) : Value :=
  .mapping [(.text "router", .mapping
    [(.text "readiness_base_delay", baseDelay), (.text "readiness_max_delay", maxDelay)])]

theorem accepted_delays_are_bounded_oneToThree :
    ∃ c b, parse (delaysOnly (.int 1) (.text "3")) = .ok c ∧
      Backoff.make c.settings.baseDelay c.settings.maxDelay = .ok b ∧
      ∀ n, Binary64.lt .zero (b.after n).next.1 = true ∧
        Binary64.le (b.after n).next.1 (.ofRatio false 3 1) = true := by
  have hdelays : (parse (delaysOnly (.int 1) (.text "3"))).toOption.map
      (fun c => (c.baseDelay, c.maxDelay)) =
        some (.ofRatio false 1 1, .ofRatio false 3 1) := by decide +kernel
  cases accepted : parse (delaysOnly (.int 1) (.text "3")) with
  | error fault => simp [accepted, Except.toOption] at hdelays
  | ok c =>
    rw [accepted, Except.toOption, Option.map_some, Option.some.injEq, Prod.mk.injEq] at hdelays
    obtain ⟨hbase, hmax⟩ := hdelays
    obtain ⟨-, -, -, b, hb, hall⟩ := accepted_delays_are_bounded accepted
    rw [hmax, hbase] at hall
    exact ⟨c, b, rfl, hb, fun n => (hall n).1 (by decide +kernel) (by decide +kernel)⟩

/-- Delays that the text of no number gives are accepted, and no wait is bounded by them. -/
theorem accepted_delays_may_be_unbounded :
    ¬ ∀ (raw : Value) (c : Config), parse raw = .ok c →
      Binary64.le .zero c.refresh = true ∧ Binary64.lt .zero c.baseDelay = true ∧
      Binary64.lt .zero c.maxDelay = true ∧
      ∃ b, Backoff.make c.settings.baseDelay c.settings.maxDelay = .ok b ∧
        ∀ n, Binary64.lt .zero (b.after n).next.1 = true ∧
          Binary64.le (b.after n).next.1 c.maxDelay = true := by
  intro h
  have hdelay : (parse (delaysOnly (.text "nan") (.int 10))).toOption.map (·.baseDelay) =
      some .nan := by decide +kernel
  cases accepted : parse (delaysOnly (.text "nan") (.int 10)) with
  | error fault => simp [accepted, Except.toOption] at hdelay
  | ok c =>
    rw [accepted, Except.toOption, Option.map_some, Option.some.injEq] at hdelay
    obtain ⟨-, hpos, -⟩ := h _ c accepted
    rw [hdelay] at hpos
    simp at hpos

end Config

end RouterAgent
