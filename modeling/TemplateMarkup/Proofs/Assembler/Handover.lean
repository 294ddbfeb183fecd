import TemplateMarkup.Options
import TemplateMarkup.Proofs.Assembler.Constructs

/-!
# Tokens taken on the way

Complete tokens may be taken from an assembler at any time, be it in the middle of a construct. Taking
them has no influence on what is made of the events that follow (`serve_behind`). So an assembler makes
of constructs one token each, and hands out every token once, whenever they are taken
(`serve_constructs`).
-/

namespace TemplateMarkup

/-- What can be asked of an assembler. -/
inductive Demand where
  | receive (e : Event)
  | take
deriving DecidableEq, Repr

def Demand.event? : Demand → Option Event
  | receive e => some e
  | take => none

namespace Assembler

/-- Meets the demands in order: all the tokens that are taken, and the assembler after the last. -/
def serve (a : Assembler) : List Demand → Except Misuse (List Token × Assembler)
  | [] => .ok ([], a)
  | .receive e :: demands => (a.receive e).bind fun a' => a'.serve demands
  | .take :: demands =>
      (a.takeTokens.2.serve demands).map fun (taken, a') => (a.takeTokens.1 ++ taken, a')

variable {a : Assembler} {e : Event} {es : List Event} {demands : List Demand}

/-! ## Tokens out of the way -/

theorem behind_behind (a : Assembler) (tokens tokens' : Array Token) :
    (a.behind tokens').behind tokens = a.behind (tokens ++ tokens') := by
  simp [behind, Array.append_assoc]

/-- The tokens that were taken, put back. -/
theorem behind_takeTokens (a : Assembler) : a.takeTokens.2.behind a.tokens = a := by
  simp [behind, takeTokens]

/-- Complete tokens have no influence on an event, nor on whether it is a misuse. -/
theorem receive_behind_eq (tokens : Array Token) (hreset : e ≠ .reset) :
    (a.behind tokens).receive e = (a.receive e).map (·.behind tokens) := by
  cases ha : a.receive e with
  | ok a' => exact receive_behind tokens hreset ha
  | error m =>
      cases hstop : e.stop? with
      | some stop =>
          rw [receive_of_stop hstop] at ha
          cases ha
      | none =>
          have helsewhere := receive_elsewhere (a := a) (a.behind tokens) hstop hreset
          rw [ha] at helsewhere
          exact helsewhere

theorem receiveAll_behind (tokens : Array Token) (hreset : .reset ∉ es) :
    (a.behind tokens).receiveAll es = (a.receiveAll es).map (·.behind tokens) := by
  induction es generalizing a with
  | nil => rfl
  | cons e es ih =>
      rw [List.mem_cons, not_or] at hreset
      rw [receiveAll_cons, receiveAll_cons, receive_behind_eq tokens (Ne.symm hreset.1)]
      cases a.receive e with
      | error m => rfl
      | ok a' => exact ih hreset.2

/-! ## Demands -/

/-- Where tokens are taken has no influence: with all of them put back, the assembler is what the
events alone make of it. -/
theorem serve_behind (a : Assembler) (hreset : .reset ∉ demands.filterMap Demand.event?) :
    (a.serve demands).map (fun (taken, a') => a'.behind taken.toArray) =
      a.receiveAll (demands.filterMap Demand.event?) := by
  induction demands generalizing a with
  | nil => simp [serve, behind, receiveAll, pure, Except.pure, Except.map]
  | cons demand demands ih =>
      cases demand with
      | receive e =>
          have hevents : (Demand.receive e :: demands).filterMap Demand.event? =
              e :: demands.filterMap Demand.event? := rfl
          rw [hevents, List.mem_cons, not_or] at hreset
          rw [hevents, serve, receiveAll_cons]
          cases a.receive e with
          | error m => rfl
          | ok a' => exact ih a' hreset.2
      | take =>
          have hlater := ih a.takeTokens.2 hreset
          calc ((a.takeTokens.2.serve demands).map
                  (fun (taken, a') => (a.takeTokens.1 ++ taken, a'))).map
                (fun (taken, a') => a'.behind taken.toArray)
              = ((a.takeTokens.2.serve demands).map
                  (fun (taken, a') => a'.behind taken.toArray)).map (·.behind a.tokens) := by
                cases a.takeTokens.2.serve demands with
                | error m => rfl
                | ok served =>
                    have htokens : (a.tokens.toList ++ served.1).toArray =
                        a.tokens ++ served.1.toArray := Array.ext' (by simp)
                    simp [Except.map, behind_behind, takeTokens, htokens]
            _ = (a.takeTokens.2.receiveAll (demands.filterMap Demand.event?)).map
                  (·.behind a.tokens) := by rw [hlater]
            _ = (a.takeTokens.2.behind a.tokens).receiveAll
                  (demands.filterMap Demand.event?) := (receiveAll_behind a.tokens hreset).symm
            _ = a.receiveAll (demands.filterMap Demand.event?) := by rw [behind_takeTokens]

/-- **One token for each construct.** A new assembler receives whole constructs, and tokens are taken
from it at any time. Those that were taken and those that it still holds are the tokens of the
constructs, each of them once and in order, and nothing is left under construction. -/
theorem serve_constructs (options : Options) {cs : List Construct}
    (h : demands.filterMap Demand.event? = cs.flatMap Construct.events) :
    ∃ taken a, serve { trackLocations := options.trackLocations } demands = .ok (taken, a) ∧
      taken ++ a.tokens.toList = Construct.tokens options.trackLocations .start cs ∧
      a.current = none ∧ a.pending = none := by
  have hreset : .reset ∉ demands.filterMap Demand.event? := by
    rw [h, List.mem_flatMap]
    rintro ⟨c, -, hc⟩
    exact c.reset_notMem_events hc
  obtain ⟨a', ha', htokens, hpending, hcurrent⟩ :=
    receiveAll_flatMap_events (a := { trackLocations := options.trackLocations }) rfl cs
  have hserve := serve_behind { trackLocations := options.trackLocations } hreset
  rw [h, ha'] at hserve
  cases hserved : serve { trackLocations := options.trackLocations } demands with
  | error m =>
      rw [hserved] at hserve
      cases hserve
  | ok served =>
      obtain ⟨taken, a⟩ := served
      rw [hserved] at hserve
      obtain rfl : a.behind taken.toArray = a' := Except.ok.inj hserve
      refine ⟨taken, a, rfl, ?_, hcurrent rfl, hpending⟩
      simpa [behind] using htokens

/-- An end tag with an attribute and a slash, and a start tag in the middle of whose value tokens are
taken. -/
theorem serve_constructs_midway :
    let cs : List Construct := [
      .tag true ['p'] (by decide) [⟨['q'], by decide, true, ["r"]⟩] true ⟨1, 11⟩,
      .tag false ['a'] (by decide) [⟨['b'], by decide, true, ["c", "", "d"]⟩] false ⟨2, 3⟩,
      .expression (some true) ['e'] (by decide)
        [⟨⟨true, [], by decide⟩, none⟩, ⟨⟨false, ['f'], by decide⟩, some ⟨true, [], by decide⟩⟩]
        ⟨2, 9⟩]
    let events := cs.flatMap Construct.events
    let demands := (events.take 15).map .receive ++ .take :: (events.drop 15).map .receive
    demands.filterMap Demand.event? = events ∧
      ∃ taken a, serve { trackLocations := true } demands = .ok (taken, a) ∧
        taken ++ a.tokens.toList = [
          ⟨.endTag "p", some ⟨⟨1, 0⟩, ⟨1, 11⟩⟩⟩,
          ⟨.startTag "a" [⟨"b", ["cd"], [], true⟩] false, some ⟨⟨1, 11⟩, ⟨2, 3⟩⟩⟩,
          ⟨.startExpression "e" [⟨"", "", true, none⟩, ⟨"f", "", false, some true⟩] true,
            some ⟨⟨2, 3⟩, ⟨2, 9⟩⟩⟩] ∧
        a.current = none ∧ a.pending = none := by
  intro cs events demands
  have h : demands.filterMap Demand.event? = events := by decide
  obtain ⟨taken, a, hserve, htokens, hcurrent, hpending⟩ := serve_constructs ⟨true⟩ h
  refine ⟨h, taken, a, hserve, htokens.trans ?_, hcurrent, hpending⟩
  decide +kernel

end Assembler

end TemplateMarkup
