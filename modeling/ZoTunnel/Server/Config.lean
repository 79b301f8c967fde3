import ZoTunnel.Protocol.Message

/-!
# Server configuration

The part of the configuration that admission, routing and the Traefik integration read. How it is
loaded and saved, and the fields that only the dashboard and the command line use, are left out.
-/

namespace ZoTunnel

/-- Subdomains that cannot be used as client ids. -/
def reservedSubdomains : List String :=
  ["dashboard", "connect", "api", "www", "admin", "install", "download"]

structure AuthConfig where
  tokens : List String := []

structure RateLimitConfig where
  requestsPerSecond : UInt32 := 100
  maxConnectionsPerClient : UInt32 := 50

structure TraefikConfig where
  enabled : Bool := false
  configDir : String := "/etc/traefik/dynamic"
  entrypoint : String := "websecure"
  certResolver : String := "letsencrypt"
  serviceUrl : String := "http://127.0.0.1:6210"

structure ServerConfig where
  publicPort : UInt16 := 6210
  /-- A client is reachable at `<clientId>.<domain>`, the dashboard at `dashboard.<domain>`. -/
  domain : String := ""
  auth : AuthConfig := {}
  rateLimit : RateLimitConfig := {}
  traefik : TraefikConfig := {}

/-- Whether a token is valid. With no tokens configured, all are accepted. -/
def ServerConfig.validateToken (config : ServerConfig) (token : String) : Bool :=
  if config.auth.tokens.isEmpty then true else config.auth.tokens.any fun t ↦ t == token

theorem ServerConfig.validateToken_iff (config : ServerConfig) (token : String) :
    config.validateToken token = true ↔ config.auth.tokens = [] ∨ token ∈ config.auth.tokens := by
  rw [validateToken]
  split
  · rename_i h
    simp [List.isEmpty_iff.mp h]
  · rename_i h
    rw [List.isEmpty_iff] at h
    simp [h]

end ZoTunnel
