import Rknpu.Emmc.Host

/-!
# Rules for the calls of the host
-/

namespace Rknpu.Emmc

open Prog

variable {ok : ∀ call : HostCall, call.Answer → Prop} {host : EMmcHost} {exc : Stop → Prop} {offset : UInt32}

/-! ## All runs -/

theorem wp_run_ask {call : HostCall} {post : List HostCall → call.Answer × EMmcHost → Prop} :
    Wp ok ((ask call).run host) post exc ↔ ∀ a, ok call a → post [call] (a, host) := by
  rw [ask, wp_run_lift, wp_ask]

@[simp] theorem wp_readReg {post : List HostCall → UInt32 × EMmcHost → Prop} :
    Wp ok ((readReg offset).run host) post exc ↔ ∀ v, ok (.readReg offset) v → post [.readReg offset] (v, host) :=
  wp_run_ask

@[simp] theorem wp_readReg16 {post : List HostCall → UInt16 × EMmcHost → Prop} :
    Wp ok ((readReg16 offset).run host) post exc ↔
      ∀ v, ok (.readReg16 offset) v → post [.readReg16 offset] (v, host) :=
  wp_run_ask

@[simp] theorem wp_readReg8 {post : List HostCall → UInt8 × EMmcHost → Prop} :
    Wp ok ((readReg8 offset).run host) post exc ↔ ∀ v, ok (.readReg8 offset) v → post [.readReg8 offset] (v, host) :=
  wp_run_ask

@[simp] theorem wp_writeReg {value : UInt32} {post : List HostCall → Unit × EMmcHost → Prop} :
    Wp ok ((writeReg offset value).run host) post exc ↔
      (ok (.writeReg offset value) () → post [.writeReg offset value] ((), host)) :=
  wp_run_ask.trans ⟨fun h => h (), fun h _ => h⟩

@[simp] theorem wp_writeReg16 {value : UInt16} {post : List HostCall → Unit × EMmcHost → Prop} :
    Wp ok ((writeReg16 offset value).run host) post exc ↔
      (ok (.writeReg16 offset value) () → post [.writeReg16 offset value] ((), host)) :=
  wp_run_ask.trans ⟨fun h => h (), fun h _ => h⟩

@[simp] theorem wp_writeReg8 {value : UInt8} {post : List HostCall → Unit × EMmcHost → Prop} :
    Wp ok ((writeReg8 offset value).run host) post exc ↔
      (ok (.writeReg8 offset value) () → post [.writeReg8 offset value] ((), host)) :=
  wp_run_ask.trans ⟨fun h => h (), fun h _ => h⟩

@[simp] theorem wp_delayUs {us : UInt64} {post : List HostCall → Unit × EMmcHost → Prop} :
    Wp ok ((delayUs us).run host) post exc ↔ (ok (.delayUs us) () → post [.delayUs us] ((), host)) :=
  wp_run_ask.trans ⟨fun h => h (), fun h _ => h⟩

@[simp] theorem wp_emmcSetClk {rate : UInt64} {post : List HostCall → UInt64 × EMmcHost → Prop} :
    Wp ok ((emmcSetClk rate).run host) post exc ↔
      (∀ inputClk, ok (.emmcSetClk rate) (.ok inputClk) → post [.emmcSetClk rate] (inputClk, host)) ∧
        ∀ err, ok (.emmcSetClk rate) (.error err) → exc (.panic (.unwrapClk err)) := by
  simp only [emmcSetClk, wp_run_bind]
  constructor
  · intro h
    exact ⟨fun inputClk hok => h (.ok inputClk) hok, fun err hok => h (.error err) hok⟩
  · rintro ⟨hret, hfail⟩ (err | inputClk) hok
    · exact hfail err hok
    · exact hret inputClk hok

@[simp] theorem wp_sendCommand {cmd : EMmcCommand} {post : List HostCall → Transfer × EMmcHost → Prop} :
    Wp ok ((sendCommand cmd).run host) post exc ↔
      (∀ transfer, ok (.sendCommand cmd) (.ok transfer) → post [.sendCommand cmd] (transfer, host)) ∧
        ∀ err, ok (.sendCommand cmd) (.error err) → exc (.err err) := by
  simp only [sendCommand, wp_run_bind]
  constructor
  · intro h
    exact ⟨fun transfer hok => h (.ok transfer) hok, fun err hok => h (.error err) hok⟩
  · rintro ⟨hret, hfail⟩ (err | transfer) hok
    · exact hfail err hok
    · exact hret transfer hok

@[simp] theorem wp_getCard {post : List HostCall → EMmcCard × EMmcHost → Prop} :
    Wp ok (getCard.run host) post exc ↔
      (∀ card, host.card = some card → post [] (card, host)) ∧ (host.card = none → exc (.panic .noCard)) := by
  simp only [getCard, wp_run_bind, wp_run_get, List.nil_append]
  cases host.card with
  | none => simp
  | some card => simp

@[simp] theorem wp_modifyCard {f : EMmcCard → EMmcCard} {post : List HostCall → Unit × EMmcHost → Prop} :
    Wp ok ((modifyCard f).run host) post exc ↔
      (∀ card, host.card = some card → post [] ((), { host with card := some (f card) })) ∧
        (host.card = none → exc (.panic .noCard)) := by
  simp only [modifyCard, wp_run_bind, wp_getCard, wp_run_modify, List.nil_append]

@[simp] theorem wp_unwrap {α : Type} {m : HostM α} {post : List HostCall → α × EMmcHost → Prop} :
    Wp ok ((unwrap m).run host) post exc ↔
      Wp ok (m.run host) post fun
        | .err err => exc (.panic (.unwrapSd err))
        | .panic cause => exc (.panic cause) := by
  change Wp ok ((m.run host).mapError _) post exc ↔ _
  rw [wp_mapError]
  constructor
  all_goals
    intro h
    refine h.mono (fun _ _ => id) fun stop => ?_
    cases stop <;> exact id

/-! ## Some run -/

theorem returns_run_ask {call : HostCall} {a : call.Answer} (h : ok call a) :
    Returns ok ((ask call).run host) (a, host) := by
  rw [ask, returns_run_lift, returns_ask]
  exact ⟨h, rfl⟩

/-- A run of the first part and a run of the rest. -/
theorem returns_seq {α β : Type} {m : HostM α} {f : α → HostM β} {a : α} {r : β × EMmcHost}
    (hm : Returns ok (m.run host) (a, host)) (hf : Returns ok ((f a).run host) r) : Returns ok ((m >>= f).run host) r :=
  returns_run_bind.mpr ⟨(a, host), hm, hf⟩

theorem returns_getCard {card : EMmcCard} (h : host.card = some card) : Returns ok (getCard.run host) (card, host) := by
  simp [getCard, h]

end Rknpu.Emmc
