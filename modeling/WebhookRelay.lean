import WebhookRelay.Payload.Denylist
import WebhookRelay.Payload.PassOnly
import WebhookRelay.Payload.Reshaping
import WebhookRelay.Payload.ExactAllowlist
import WebhookRelay.Payload.ExactDenylist
import WebhookRelay.Payload.PathLaws
import WebhookRelay.Payload.Validated
import WebhookRelay.Payload.Serialization
import WebhookRelay.Payload.Canonical
import WebhookRelay.Delivery.Retries
import WebhookRelay.Delivery.Accounting
import WebhookRelay.Delivery.Sequential
import WebhookRelay.Delivery.Noninterference
import WebhookRelay.Delivery.Redelivery
import WebhookRelay.Delivery.Selection
import WebhookRelay.Delivery.Headers
import WebhookRelay.Breaker.Trial
import WebhookRelay.Breaker.Cooldown
import WebhookRelay.Breaker.Reopening
import WebhookRelay.Breaker.Counting
import WebhookRelay.Breaker.Edits
import WebhookRelay.Breaker.FailOpen
import WebhookRelay.Breaker.HalfOpen
import WebhookRelay.Secrets.RoundTrip
import WebhookRelay.Secrets.Interruption
import WebhookRelay.Secrets.Signing
import WebhookRelay.Secrets.Window
import WebhookRelay.Secrets.LoadSave
import WebhookRelay.Secrets.Register
import WebhookRelay.Secrets.External
import WebhookRelay.Secrets.TwoRotations
import WebhookRelay.Secrets.ConcurrentRotation
import WebhookRelay.Secrets.ColumnLength
import WebhookRelay.System.FanOut
import WebhookRelay.System.Retention
import WebhookRelay.System.Metrics
import WebhookRelay.System.Endpoints
import WebhookRelay.System.Body
import WebhookRelay.System.Refusals
import WebhookRelay.System.Served
import WebhookRelay.Secrets.KeySetting
import WebhookRelay.Secrets.AtRest
import WebhookRelay.System.Secrecy
