import Lobbyboy.Config.Loading
import Lobbyboy.ServerKiller.BillingRule

/-! `need_destroy` on a provider's configuration as `LBConfig.load` has accepted it: a
duration may be missing, of any type, malformed, zero or too long to be shown. The decision
reads them one after another and only as far as it needs them, so what is wrong with a
configuration may show at a certain age of a server only. -/

namespace Lobbyboy.ServerKiller

open Foundation Utils Config

variable {T : Type}

/-! ### The program -/

/-- `to_seconds(v)`; the regular expression takes strings only. -/
def secondsOf : PyVal → Except PyExc ℕ
  | .str s => toSeconds (some s)
  | _ => toSeconds none

/-- `to_seconds(config.destroy_safe_time) if config.destroy_safe_time else 0`. -/
def safeTimeOf (config : Confirmed) : Except PyExc ℕ := do
  let v ← getattr config "destroy_safe_time"
  if v.truthy then secondsOf v else return 0

/-- A duration in a message. -/
def shown : PyVal → String
  | .str s => s
  | _ => "None"

/-- `to_seconds(option)`, and the option in a message. -/
def durationOf (config : Confirmed) (option : String) : Except PyExc (ℕ × String) := do
  let v ← getattr config option
  return (← secondsOf v, shown v)

def loadedOptions (config : Confirmed) : Options where
  minLifeToLive := durationOf config "min_life_to_live"
  billTimeUnit := durationOf config "bill_time_unit"
  destroySafeTime := safeTimeOf config

def loadedNeedDestroy (activeSession : ActiveSession T) (config : Confirmed) (m : LBServerMeta)
    (now₁ now₂ : ℤ) : Except PyExc (Bool × String) :=
  judge activeSession (loadedOptions config) m now₁ now₂

/-! ### Typed configurations -/

def ofOption : Option String → PyVal
  | some s => .str s
  | none => .none

/-- The object of a configuration whose options are as declared. -/
def configObj (config : LBConfigProvider) : Confirmed :=
  .object [("load_module", ofOption config.loadModule), ("enable", .bool config.enable),
    ("min_life_to_live", ofOption config.minLifeToLive),
    ("bill_time_unit", ofOption config.billTimeUnit),
    ("destroy_safe_time", ofOption config.destroySafeTime),
    ("server_name_prefix", ofOption config.serverNamePrefix),
    ("api_token", ofOption config.apiToken),
    ("extra_ssh_keys", .list (config.extraSshKeys.map .str))]

theorem secondsOf_ofOption (s : Option String) : secondsOf (ofOption s) = toSeconds s := by
  cases s <;> rfl

theorem shown_ofOption (s : Option String) : shown (ofOption s) = s.getD "None" := by
  cases s <;> rfl

theorem safeTimeOf_configObj (config : LBConfigProvider) :
    safeTimeOf (configObj config) = destroySafeTimeInSec config := by
  have hget : getattr (configObj config) "destroy_safe_time" =
      .ok (ofOption config.destroySafeTime) := rfl
  rw [safeTimeOf, hget, destroySafeTimeInSec, ok_bind]
  cases config.destroySafeTime with
  | none => rfl
  | some s =>
    by_cases hs : s = ""
    · subst hs
      rfl
    · simp [ofOption, PyVal.truthy, hs, secondsOf]

theorem durationOf_configObj {config : LBConfigProvider} {option : String} {s : Option String}
    (hget : getattr (configObj config) option = .ok (ofOption s)) :
    durationOf (configObj config) option = duration s := by
  rw [durationOf, hget, ok_bind, secondsOf_ofOption, shown_ofOption]
  rfl

theorem loadedOptions_configObj (config : LBConfigProvider) :
    loadedOptions (configObj config) = typedOptions config := by
  rw [loadedOptions, typedOptions, safeTimeOf_configObj, durationOf_configObj rfl,
    durationOf_configObj rfl]

/-- On options as declared the two decisions are one. -/
theorem loadedNeedDestroy_configObj (activeSession : ActiveSession T) (config : LBConfigProvider)
    (m : LBServerMeta) (now₁ now₂ : ℤ) :
    loadedNeedDestroy activeSession (configObj config) m now₁ now₂ =
      needDestroy activeSession config m now₁ now₂ := by
  rw [loadedNeedDestroy, loadedOptions_configObj, needDestroy]

/-! ### When a verdict is given -/

/-- An option that is there and a duration. -/
def Reads (option : Option PyVal) (seconds : ℕ) : Prop :=
  ∃ v, option = some v ∧ secondsOf v = .ok seconds

/-- For the safe time, what is empty or not set counts as zero. -/
def ReadsSafe (option : Option PyVal) (seconds : ℕ) : Prop :=
  ∃ v, option = some v ∧ if v.truthy then secondsOf v = .ok seconds else seconds = 0

/-- A `timedelta` can hold it. -/
def Showable (seconds : ℤ) : Prop := seconds < 86400 * 1000000000

/-- Past the minimum life a verdict needs a unit that is not zero, a safe time that is
unset or right, and a rest of the cycle that can be shown. -/
def BillVerdict (option : String → Option PyVal) (age : ℤ) : Prop :=
  ∃ U S, Reads (option "bill_time_unit") U ∧ 0 < U ∧ ReadsSafe (option "destroy_safe_time") S ∧
    Showable (U - age % U - S)

/-- Only the minimum life is needed at every age. -/
def VerdictGiven (option : String → Option PyVal) (age₁ age₂ : ℤ) : Prop :=
  ∃ L : ℕ, Reads (option "min_life_to_live") L ∧
    (L = 0 ∨ age₁ < L ∧ Showable (L - age₁) ∨ L ≤ age₁ ∧ BillVerdict option age₂)

variable {config : Confirmed} {option : String → Option PyVal} {m : LBServerMeta}

theorem safeTimeOf_eq_ok_iff {S : ℕ} :
    safeTimeOf config = .ok S ↔ ReadsSafe (config.attr? "destroy_safe_time") S := by
  simp only [safeTimeOf, bind_eq_ok, getattr_eq_ok_iff, ReadsSafe]
  refine exists_congr fun v => and_congr_right fun _ => ?_
  split_ifs
  · rfl
  · simp [pure, Except.pure, eq_comm]

theorem showable_of_nonpos {seconds : ℤ} (h : seconds ≤ 0) : Showable seconds := by
  unfold Showable
  omega

theorem shown_returns_iff {seconds : ℤ} {verdict : String → Bool × String} (h : 0 < seconds) :
    (∃ v, (do return verdict (← humanizeSeconds seconds) : Except PyExc (Bool × String)) = .ok v) ↔
      Showable seconds := by
  rw [Showable, ← humanizeSeconds_returns_iff h.le, bind_returns_iff]
  exact exists_congr fun text => ⟨And.left, fun h => ⟨h, _, rfl⟩⟩

theorem durationOf_eq_ok_iff {name : String} {d : ℕ × String} :
    durationOf config name = .ok d ↔
      ∃ v, config.attr? name = some v ∧ secondsOf v = .ok d.1 ∧ d.2 = shown v := by
  simp only [durationOf, bind_eq_ok, getattr_eq_ok_iff]
  refine exists_congr fun v => and_congr_right fun _ => ?_
  constructor
  · rintro ⟨n, hn, h⟩
    cases h
    exact ⟨hn, rfl⟩
  · rintro ⟨hn, hd⟩
    exact ⟨d.1, hn, congrArg Except.ok (Prod.ext rfl hd.symm)⟩

theorem judgeInBill_returns_iff {now : ℤ} :
    (∃ verdict, judgeInBill (loadedOptions config) m now = .ok verdict) ↔
      BillVerdict config.attr? (m.liveSec now) := by
  unfold judgeInBill
  rw [bind_returns_iff]
  constructor
  · rintro ⟨⟨U, text⟩, hunit, h⟩
    obtain ⟨v, hv, hU, -⟩ := durationOf_eq_ok_iff.mp hunit
    by_cases hU0 : U = 0
    · subst hU0
      obtain ⟨verdict, h⟩ := h
      cases h
    · simp only [if_neg hU0] at h
      obtain ⟨S, hS, h⟩ := bind_returns_iff.mp h
      refine ⟨U, S, ⟨v, hv, hU⟩, by omega, safeTimeOf_eq_ok_iff.mp hS, ?_⟩
      by_cases httl : 0 < (U : ℤ) - m.liveSec now % U - S
      · rw [if_pos httl] at h
        exact (shown_returns_iff httl).mp h
      · exact showable_of_nonpos (not_lt.mp httl)
  · rintro ⟨U, S, ⟨v, hv, hU⟩, hpos, hS, hshow⟩
    have hU0 : U ≠ 0 := by omega
    refine ⟨(U, shown v), durationOf_eq_ok_iff.mpr ⟨v, hv, hU, rfl⟩, ?_⟩
    simp only [if_neg hU0]
    refine bind_returns_iff.mpr ⟨S, safeTimeOf_eq_ok_iff.mpr hS, ?_⟩
    by_cases httl : 0 < (U : ℤ) - m.liveSec now % U - S
    · rw [if_pos httl]
      exact (shown_returns_iff httl).mpr hshow
    · rw [if_neg httl]
      exact ⟨_, rfl⟩

/-- An idle managed server. -/
theorem loadedNeedDestroy_returns_iff {activeSession : ActiveSession T} {now₁ now₂ : ℤ}
    (hs : activeSession.sessions m.serverName = []) (hm : m.manage = true) :
    (∃ verdict, loadedNeedDestroy activeSession config m now₁ now₂ = .ok verdict) ↔
      VerdictGiven config.attr? (m.liveSec now₁) (m.liveSec now₂) := by
  rw [loadedNeedDestroy, judge_of_idle hs hm, bind_returns_iff]
  constructor
  · rintro ⟨⟨L, text⟩, hlife, h⟩
    obtain ⟨v, hv, hL, -⟩ := durationOf_eq_ok_iff.mp hlife
    refine ⟨L, ⟨v, hv, hL⟩, ?_⟩
    by_cases hL0 : L ≤ 0
    · exact .inl (by omega)
    · simp only [if_neg hL0] at h
      by_cases httl : 0 < (L : ℤ) - m.liveSec now₁
      · rw [if_pos httl] at h
        exact .inr (.inl ⟨by omega, (shown_returns_iff httl).mp h⟩)
      · rw [if_neg httl] at h
        exact .inr (.inr ⟨by omega, judgeInBill_returns_iff.mp h⟩)
  · rintro ⟨L, ⟨v, hv, hL⟩, hlife⟩
    refine ⟨(L, shown v), durationOf_eq_ok_iff.mpr ⟨v, hv, hL, rfl⟩, ?_⟩
    by_cases hL0 : L ≤ 0
    · simp only [if_pos hL0]
      exact ⟨_, rfl⟩
    · simp only [if_neg hL0]
      rcases hlife with hzero | ⟨hyoung, hshow⟩ | ⟨hold, hbill⟩
      · omega
      · have httl : 0 < (L : ℤ) - m.liveSec now₁ := by omega
        rw [if_pos httl]
        exact (shown_returns_iff httl).mpr hshow
      · have httl : ¬ 0 < (L : ℤ) - m.liveSec now₁ := by omega
        rw [if_neg httl]
        exact judgeInBill_returns_iff.mpr hbill

/-- Whatever the loader accepts, the verdict on a server of an enabled provider is given
exactly when the server is kept anyway or the options in the file can be used as far as its
age asks for them. -/
theorem loadedNeedDestroy_of_load_iff {importModule : Importer} {raw : PyDict} {c : LBConfig}
    {name : String} {cls : ProviderClass} (hload : LBConfig.load importModule raw = .ok c)
    (hcls : c.providerCls.get? name = some cls) :
    ∃ config, c.provider.get? name = some config ∧
      ∀ (activeSession : ActiveSession T) (m : LBServerMeta) (now₁ now₂ : ℤ),
        (∃ verdict, loadedNeedDestroy activeSession config m now₁ now₂ = .ok verdict) ↔
          activeSession.sessions m.serverName ≠ [] ∨ m.manage = false ∨
            VerdictGiven (optionOf raw cls name) (m.liveSec now₁) (m.liveSec now₂) := by
  obtain ⟨config, hconfig, hoption⟩ := LBConfig.load_option hload hcls
  have hoptions : config.attr? = optionOf raw cls name := funext hoption
  refine ⟨config, hconfig, fun activeSession m now₁ now₂ => ?_⟩
  by_cases hs : activeSession.sessions m.serverName = []
  · by_cases hm : m.manage = true
    · rw [loadedNeedDestroy_returns_iff hs hm, hoptions]
      simp [hs, hm]
    · have hkept : ∃ reason, loadedNeedDestroy activeSession config m now₁ now₂ =
          .ok (false, reason) := judge_of_not_manage (Bool.not_eq_true _ ▸ hm)
      obtain ⟨reason, hkept⟩ := hkept
      simp [hkept, hm]
  · have hkept : ∃ reason, loadedNeedDestroy activeSession config m now₁ now₂ =
        .ok (false, reason) := judge_of_sessions hs
    obtain ⟨reason, hkept⟩ := hkept
    simp [hkept, hs]

/-- `IgniteProvider`, with the fields of `IgniteConfig`. -/
def igniteProvider : ProviderClass :=
  ⟨"IgniteProvider", providerFields ++ [("image", some (.str "weaveworks/ignite-ubuntu")),
    ("cpu", some (.int 1)), ("mem", some (.str "1GB")), ("disk", some (.str "5GB"))]⟩

def igniteImporter : Importer := fun modulePath =>
  if modulePath = "lobbyboy.contrib.provider.ignite" then
    .ok fun name => if name = "IgniteProvider" then some (.providerClass igniteProvider) else none
  else .error ⟨.exception, "No module named"⟩

/-- A file with one provider, of a minimum life of one hour. -/
def igniteFile (billTimeUnit : String) : PyDict :=
  .ofPairs [("data_dir", .str "/data"), ("provider", .dict [("ignite", .dict
    [("load_module", .str "lobbyboy.contrib.provider.ignite::IgniteProvider"),
      ("min_life_to_live", .str "1h"), ("bill_time_unit", .str billTimeUnit)])])]

def igniteServer : LBServerMeta :=
  { providerName := "ignite", workspace := .parse "/data/ignite/a", serverName := "a",
    createdTimestamp := 0 }

theorem verdict_of_hourly_billing :
    ∃ c config, LBConfig.load igniteImporter (igniteFile "1h") = .ok c ∧
      c.provider.get? "ignite" = some config ∧
        ∃ verdict, loadedNeedDestroy (.empty : ActiveSession Unit) config igniteServer 7000 7000 =
          .ok verdict := by
  have hload : LBConfig.load igniteImporter (igniteFile "1h") = .ok _ := rfl
  have hcls : OrderedDict.get? (.ofPairs [("ignite", igniteProvider)]) "ignite" =
      some igniteProvider := rfl
  obtain ⟨config, hconfig, hverdict⟩ := loadedNeedDestroy_of_load_iff (T := Unit) hload hcls
  refine ⟨_, config, rfl, hconfig, (hverdict .empty igniteServer 7000 7000).mpr ?_⟩
  have hsafe : ReadsSafe
      (optionOf (igniteFile "1h") igniteProvider "ignite" "destroy_safe_time") 0 :=
    ⟨.none, rfl, rfl⟩
  exact .inr (.inr ⟨3600, ⟨_, rfl, rfl⟩, .inr (.inr ⟨by decide, 3600, 0, ⟨_, rfl, rfl⟩, by decide,
    hsafe, show (_ : ℤ) < _ by decide⟩)⟩)

/-- A billing unit of zero is accepted, and found out after an hour. -/
theorem zero_unit_raises_after_one_hour :
    ∃ c config, LBConfig.load igniteImporter (igniteFile "0s") = .ok c ∧
      c.providerCls.get? "ignite" = some igniteProvider ∧
        c.provider.get? "ignite" = some config ∧
          (∃ reason, loadedNeedDestroy (.empty : ActiveSession Unit) config igniteServer 3599 3599 =
            .ok (false, reason)) ∧
            loadedNeedDestroy (.empty : ActiveSession Unit) config igniteServer 3600 3600 =
              .error ⟨.zeroDivisionError, "integer division or modulo by zero"⟩ := by
  refine ⟨_, _, rfl, rfl, rfl, ?_, ?_⟩
  · exact ⟨"still have 0:00:01 to live(min_life_to_live=1h).", by decide +kernel⟩
  · decide +kernel

end Lobbyboy.ServerKiller
