import Piteka.Application.WebhookIngestionPaths
import Piteka.Application.WebhookScenario

/-!
# Scenarios of the webhook service

The stores and the tracker answer in memory, the outside answers as the schedule
says; the sample deliveries come as payloads of the service.
-/
namespace Piteka.Application

set_option autoImplicit false

open Piteka.Interleaving Piteka.Storage

/-- The step in which the stores answer without fault, the tracker as it is and the outside
as given. -/
def serviceReact (rt : Runtime) (w : World) (s : Service) :
    (op : ServiceCall) → ServiceAnswer op × Service
  | .inl op =>
    let x := react rt w s.1 op
    (x.1, x.2, s.2)
  | .inr (.record deploymentId eventAt) =>
    let x := s.2.record deploymentId eventAt
    (x.1, s.1, x.2)

theorem serviceReact_sound (rt : Runtime) (faults : StoreCall → Prop) (w : World) (s : Service)
    (op : ServiceCall) :
    ServiceExec rt faults s op (serviceReact rt w s op).1 (serviceReact rt w s op).2 := by
  cases op with
  | inl op => exact ⟨react_sound rt faults w s.1 op, rfl⟩
  | inr op =>
    cases op with
    | record deploymentId eventAt => exact ⟨rfl, rfl⟩

/-- The stores `s` with a tracker that has seen nothing. -/
def started (s : Stores) : Service := (s, .empty)

def samplePost (deliveryId state : String) (updatedAt : UInt64) : GitHubWebhookPayload where
  deliveryId := deliveryId
  eventType := "deployment_status"
  signature := "sha256="
  body := sampleBody state updatedAt

end Piteka.Application
