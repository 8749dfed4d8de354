import VgiCompress.Interleaving
import VgiCompress.Worker

/-!
# The catalog's name

`build_worker` names the catalog after an environment variable and sets
the variable where it has no value. In the browser every ring slot's serve
thread builds its own worker in the one process, so the look at the
variable, the write and the read of one slot fall between those of
others. `every_slot_gets_the_name` says that no schedule shows: each slot
gets the name that a lone worker gives itself.
-/

namespace RustStd

/-! ## `std::env` -/

/-- The environment of the process, each value an `OsString`. -/
abbrev Vars := String → Option (List UInt8)

namespace Vars

/-- `std::env::var(key).ok()`: the value, where it is UTF-8. -/
def var (env : Vars) (key : String) : Option String :=
  (env key).bind fun value => String.fromUTF8? ⟨value.toArray⟩

/-- `std::env::set_var`, for a key and a value that it takes. -/
def setVar (env : Vars) (key value : String) : Vars :=
  Function.update env key (some value.toUTF8.data.toList)

/-- `if var_os(key).is_none() { set_var(key, value) }`. -/
def setDefault (env : Vars) (key value : String) : Vars :=
  if (env key).isNone then env.setVar key value else env

variable {env : Vars} {key key' value : String}

theorem setVar_self : env.setVar key value key = some value.toUTF8.data.toList :=
  Function.update_self _ _ _

theorem setVar_of_ne (h : key' ≠ key) : env.setVar key value key' = env key' :=
  Function.update_of_ne h _ _

theorem setVar_setVar : (env.setVar key value).setVar key value = env.setVar key value :=
  Function.update_idem ..

theorem var_setVar : (env.setVar key value).var key = some value := by
  rw [var, setVar_self, Option.bind_some, Array.toArray_toList]
  exact dif_pos value.isValidUTF8

theorem setDefault_of_none (h : env key = none) :
    env.setDefault key value = env.setVar key value := by
  rw [setDefault, h]
  rfl

theorem setDefault_of_ne_none (h : env key ≠ none) : env.setDefault key value = env := by
  rw [setDefault, if_neg]
  simpa using h

theorem setDefault_of_ne (h : key' ≠ key) : env.setDefault key value key' = env key' := by
  rw [setDefault]
  split
  · exact setVar_of_ne h
  · rfl

theorem setDefault_self_ne_none : env.setDefault key value key ≠ none := by
  by_cases h : env key = none
  · rw [setDefault_of_none h, setVar_self]
    exact nofun
  · rwa [setDefault_of_ne_none h]

/-- A variable that is read under a default of its own need not be set. -/
theorem var_setDefault :
    ((env.setDefault key value).var key).getD value = (env.var key).getD value := by
  by_cases h : env key = none
  · rw [setDefault_of_none h, var_setVar, var, h]
    rfl
  · rw [setDefault_of_ne_none h]

theorem var_congr {env' : Vars} (h : env key = env' key) : env.var key = env'.var key := by
  rw [var, var, h]

end Vars

end RustStd

namespace VgiCompress

open RustStd Interleaving

/-! ## One worker -/

/-- `catalog_name`, and the environment it leaves behind. -/
def catalogName (env : Vars) : String × Vars :=
  let env := env.setDefault "VGI_WORKER_CATALOG_NAME" "compress"
  ((env.var "VGI_WORKER_CATALOG_NAME").getD "compress", env)

/-- What the browser build does on the main thread, before any slot starts. -/
def wasmInit (env : Vars) : Vars :=
  env.setDefault "VGI_WORKER_SHARED_STORAGE" "memory"

theorem catalogName_fst (env : Vars) :
    (catalogName env).1 = (env.var "VGI_WORKER_CATALOG_NAME").getD "compress" :=
  Vars.var_setDefault

theorem catalogName_snd_of_ne (env : Vars) {key : String} (h : key ≠ "VGI_WORKER_CATALOG_NAME") :
    (catalogName env).2 key = env key :=
  Vars.setDefault_of_ne h

theorem catalogName_wasmInit (env : Vars) :
    (catalogName (wasmInit env)).1 = (catalogName env).1 := by
  rw [catalogName_fst, catalogName_fst]
  exact congrArg (Option.getD · _) (Vars.var_congr (Vars.setDefault_of_ne (by decide)))

/-! ## A slot's turns -/

/-- Where a slot stands in `catalog_name`: before one of its three accesses
to the environment, or behind them with the name. -/
inductive CatalogName where
  | varOs
  | setVar
  | var
  | ret (name : String)
  deriving DecidableEq

/-- One access to the environment. The standard library holds its lock
for the whole of each, and for no two together. -/
def CatalogName.step : Program Vars CatalogName
  | env, .varOs => (env, if (env "VGI_WORKER_CATALOG_NAME").isNone then .setVar else .var)
  | env, .setVar => (env.setVar "VGI_WORKER_CATALOG_NAME" "compress", .var)
  | env, .var => (env, .ret ((env.var "VGI_WORKER_CATALOG_NAME").getD "compress"))
  | env, .ret name => (env, .ret name)

/-- The slots that build their workers, after these turns. -/
def slots {ι : Type} [DecidableEq ι] (env : Vars) (schedule : List ι) :
    World Vars CatalogName ι :=
  World.run CatalogName.step ⟨wasmInit env, fun _ => .varOs⟩ schedule

/-- The accesses that a slot has before it. -/
def CatalogName.rank : CatalogName → Nat
  | .varOs => 3
  | .setVar => 2
  | .var => 1
  | .ret _ => 0

theorem CatalogName.ranked : Ranked CatalogName.step CatalogName.rank := by
  intro env l
  cases l with
  | varOs =>
      rw [step]
      split
      · exact Nat.le_refl 2
      · exact Nat.le_succ 1
  | setVar => exact Nat.le_refl 1
  | var => exact Nat.le_refl 0
  | ret name => exact Nat.le_refl 0

theorem CatalogName.eq_ret_of_rank {l : CatalogName} (h : l.rank = 0) : ∃ name, l = .ret name := by
  cases l with
  | ret name => exact ⟨name, rfl⟩
  | varOs => cases h
  | setVar => cases h
  | var => cases h

/-! ## What holds between the turns -/

section Outline

variable {env env' : Vars}

/-- The environment is as the slots found it, or as one worker leaves it. -/
def EnvOf (env env' : Vars) : Prop := env' = env ∨ env' = (catalogName env).2

/-- What a slot knows of the environment. Only a slot that saw no value is
about to write one, and whoever reads finds it written. -/
def CatalogName.Knows (env env' : Vars) : CatalogName → Prop
  | .varOs => True
  | .setVar => env "VGI_WORKER_CATALOG_NAME" = none
  | .var => env' = (catalogName env).2
  | .ret name => env' = (catalogName env).2 ∧ name = (catalogName env).1

/-- A write makes the environment what one worker leaves, also where another
slot has written before. -/
theorem EnvOf.setVar (h : EnvOf env env') (hnone : env "VGI_WORKER_CATALOG_NAME" = none) :
    env'.setVar "VGI_WORKER_CATALOG_NAME" "compress" = (catalogName env).2 := by
  have hleft : (catalogName env).2 = env.setVar "VGI_WORKER_CATALOG_NAME" "compress" :=
    Vars.setDefault_of_none hnone
  rcases h with rfl | rfl
  · exact hleft.symm
  · rw [hleft, Vars.setVar_setVar]

/-- A slot that sees no value stands in the environment the slots found. -/
theorem EnvOf.eq_none (h : EnvOf env env') (hnone : env' "VGI_WORKER_CATALOG_NAME" = none) :
    env "VGI_WORKER_CATALOG_NAME" = none := by
  rcases h with rfl | rfl
  · exact hnone
  · exact absurd hnone Vars.setDefault_self_ne_none

theorem EnvOf.eq_left (h : EnvOf env env') (hsome : env' "VGI_WORKER_CATALOG_NAME" ≠ none) :
    env' = (catalogName env).2 := by
  rcases h with rfl | rfl
  · exact (Vars.setDefault_of_ne_none hsome).symm
  · rfl

/-- A turn leaves the environment alone, or makes it what one worker leaves. -/
theorem CatalogName.step_env {l : CatalogName} (h : EnvOf env env') (hl : l.Knows env env') :
    (step env' l).1 = env' ∨ (step env' l).1 = (catalogName env).2 := by
  cases l with
  | setVar => exact .inr (h.setVar hl)
  | varOs => exact .inl rfl
  | var => exact .inl rfl
  | ret name => exact .inl rfl

theorem CatalogName.outline (env : Vars) :
    Outline CatalogName.step (EnvOf env) fun env' l => l.Knows env env' where
  keeps := by
    intro env' l h hl
    rcases step_env h hl with hsame | hleft
    · rwa [hsame]
    · exact .inr hleft
  proceeds := by
    intro env' l h hl
    cases l with
    | varOs =>
        rw [step]
        split
        · exact h.eq_none (Option.isNone_iff_eq_none.mp ‹_›)
        · exact h.eq_left fun hnone => ‹¬_› (Option.isNone_iff_eq_none.mpr hnone)
    | setVar => exact h.setVar hl
    | var =>
        have hleft : env' = (catalogName env).2 := hl
        subst hleft
        exact ⟨rfl, rfl⟩
    | ret name => exact hl
  stable := by
    intro env' l l' h hl hl'
    rcases step_env h hl with hsame | hleft
    · rwa [hsame]
    · cases l' with
      | varOs => trivial
      | setVar => exact hl'
      | var => exact hleft
      | ret name => exact ⟨hleft, hl'.2⟩

end Outline

/-! ## Every schedule -/

section Slots

variable {ι : Type} [DecidableEq ι]

theorem slots_meets (env : Vars) (schedule : List ι) :
    (slots env schedule).Meets (EnvOf (wasmInit env))
      fun env' l => l.Knows (wasmInit env) env' := by
  refine (CatalogName.outline (wasmInit env)).run ⟨?_, ?_⟩ schedule
  · exact .inl rfl
  · exact fun _ => trivial

theorem slots_shared_of_ne (env : Vars) (schedule : List ι) {key : String}
    (h : key ≠ "VGI_WORKER_CATALOG_NAME") : (slots env schedule).shared key = wasmInit env key := by
  rcases (slots_meets env schedule).1 with hsame | hleft
  · rw [hsame]
  · rw [hleft, catalogName_snd_of_ne _ h]

theorem slots_done (env : Vars) {schedule : List ι} {i : ι} (h : 3 ≤ schedule.count i) :
    ∃ name, (slots env schedule).locals i = .ret name := by
  have hrank := CatalogName.ranked.run ⟨wasmInit env, fun _ => .varOs⟩ i schedule
  exact CatalogName.eq_ret_of_rank (Nat.le_zero.mp (hrank.trans (by simp [CatalogName.rank, h])))

/-- **Every slot gets the name a lone worker gives itself**, however the
slots' turns fall. A slot has it after three turns of its own, with the
variable written by then. No cap of any row is another while slots start,
and the storage is chosen throughout. -/
theorem every_slot_gets_the_name (env : Vars) (schedule : List ι) :
    (∀ i name, (slots env schedule).locals i = .ret name →
      name = (catalogName env).1
        ∧ (slots env schedule).shared = (catalogName (wasmInit env)).2)
    ∧ (∀ i, 3 ≤ schedule.count i →
      (slots env schedule).locals i = .ret (catalogName env).1)
    ∧ (∀ (perCall : Option Int64) {bound : DataType} (params : ProcessParams bound),
      resolveCap (slots env schedule).shared.var perCall params
        = resolveCap env.var perCall params)
    ∧ (slots env schedule).shared "VGI_WORKER_SHARED_STORAGE" ≠ none := by
  have hname : ∀ i name, (slots env schedule).locals i = .ret name →
      name = (catalogName env).1
        ∧ (slots env schedule).shared = (catalogName (wasmInit env)).2 := by
    intro i name hi
    have hknows := (slots_meets env schedule).2 i
    rw [hi] at hknows
    exact ⟨hknows.2.trans (catalogName_wasmInit env), hknows.1⟩
  refine ⟨hname, fun i hi => ?_, fun perCall bound params => ?_, ?_⟩
  · obtain ⟨name, hret⟩ := slots_done env hi
    rw [hret, (hname i name hret).1]
  · have hcap : (slots env schedule).shared.var "VGI_COMPRESS_MAX_OUTPUT_BYTES"
        = env.var "VGI_COMPRESS_MAX_OUTPUT_BYTES" :=
      Vars.var_congr ((slots_shared_of_ne env schedule (by decide)).trans
        (Vars.setDefault_of_ne (by decide)))
    rw [resolveCap, resolveCap, hcap]
  · rw [slots_shared_of_ne env schedule (by decide)]
    exact Vars.setDefault_self_ne_none

end Slots

/-- Two slots that both see no value, and both write it. -/
example : (slots (fun _ => none) [0, 1, 0, 1, 0, 1]).locals (1 : Fin 2) = .ret "compress" := by
  decide +kernel

end VgiCompress
