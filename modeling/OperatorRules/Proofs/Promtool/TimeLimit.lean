import OperatorRules.Proofs.Promtool.Container
import OperatorRules.Proofs.Text.Duration

/-!
# Time limits

What the message of a run past its time limit tells. It shows the limit that was set for promtool,
no other one, and shows it exactly: the limit can be read from the message.
-/

namespace OperatorRules

namespace VerifyError

theorem message_timeout_eq (stage : Stage) (limit : Duration) :
    (timeout stage limit).message = stage.name ++ " did not finish within " ++ limit.text := rfl

theorem message_timeout_inj {stage : Stage} {limit limit' : Duration} :
    (timeout stage limit).message = (timeout stage limit').message ↔ limit = limit' := by
  rw [message_timeout_eq, message_timeout_eq, String.append_right_inj,
    Duration.text_injective.eq_iff]

end VerifyError

namespace ContainerPromtool

/-- A run ends with the error of an exceeded time limit if and only if it is past the limit that was
set. The message of the error says exactly how long the limit is: as a decimal number without a zero
at the end of its fraction, in the largest unit in which it is at least one, or in nanoseconds if it
is zero. Reading the number and the unit gives the limit, so for one stage different limits have
different messages. -/
theorem run_timeout_message (stage : Stage) (limit : Duration) :
    let e := VerifyError.timeout stage limit
    (∀ (p : ContainerPromtool) (runtime : ContainerRuntime) (args : List String) (d : Disk),
      (p.run runtime stage args d).result = .error e ↔
        (∃ kill, runtime.run args = .overdue kill) ∧ p.timeout = limit) ∧
    e.message = stage.name ++ " did not finish within " ++ limit.text ∧
    (∃ whole fraction u, limit.Shows limit.text.toList whole fraction u) ∧
    Duration.read? limit.text.toList = some limit.totalNanos ∧
    ∀ limit', e.message = (VerifyError.timeout stage limit').message ↔ limit = limit' := by
  intro e
  exact ⟨fun p runtime args d => (p.run_result runtime stage args d).eq_timeout_iff,
    VerifyError.message_timeout_eq stage limit,
    ⟨limit.whole, limit.fraction, limit.scale, limit.shows_text⟩, limit.read?_text,
    fun _ => VerifyError.message_timeout_inj⟩

end ContainerPromtool

end OperatorRules
