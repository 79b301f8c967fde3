import ZoTunnel.Lib.Framing
import ZoTunnel.Server.Config

/-!
# Traefik routes

The server keeps one file for each client in Traefik's dynamic directory. `add_client` reads the
file and writes it only when it differs; reading and writing are two steps, between which other
tasks can run. A write that fails can leave the file as it was, or truncated.
-/

namespace ZoTunnel

/-- The dynamic directory: the contents of its files by name. -/
abbrev RouteFiles := String → Option Bytes

/-- The service that every router points at. -/
def sharedService : String := "zo-tunnel-server"

/-- Characters other than ASCII letters, digits, `-` and `_` become `_`. -/
def sanitizeId (id : String) : String :=
  String.ofList (id.toList.map fun c ↦ if c.isAlphanum || c == '-' || c == '_' then c else '_')

/-- The name of a client's file. -/
def clientFile (safeId : String) : String := "zo-tunnel-" ++ safeId ++ ".yml"

/-- The router of a client. -/
def routerName (clientId : String) : String := "zo-tunnel-" ++ sanitizeId clientId

/-- The routers that `write_static_routes` defines. -/
def staticRouterNames : List String := ["zo-tunnel-dashboard", "zo-tunnel-apex"]

/-- The configuration and the domain, as the server starts with them. -/
structure TraefikManager where
  config : TraefikConfig
  domain : String

/-- What a write of a file comes to. -/
inductive FileWrite
  | written
  /-- The file could not be opened. -/
  | refused
  /-- The file was truncated, and the write failed after `n` bytes. -/
  | cut (n : ℕ)
  deriving DecidableEq, Repr

namespace TraefikManager

variable (mgr : TraefikManager)

/-- The content that `write_static_routes` writes: routers for the dashboard and the apex, and the
shared service. -/
def staticRoutes : String :=
  "http:\n  routers:\n    zo-tunnel-dashboard:\n      rule: \"Host(`dashboard." ++ mgr.domain
    ++ "`)\"\n      entryPoints:\n        - \"" ++ mgr.config.entrypoint ++ "\"\n      service: "
    ++ sharedService ++ "\n      tls:\n        certResolver: " ++ mgr.config.certResolver
    ++ "\n    zo-tunnel-apex:\n      rule: \"Host(`" ++ mgr.domain
    ++ "`)\"\n      entryPoints:\n        - \"" ++ mgr.config.entrypoint ++ "\"\n      service: "
    ++ sharedService ++ "\n      tls:\n        certResolver: " ++ mgr.config.certResolver
    ++ "\n  services:\n    " ++ sharedService
    ++ ":\n      loadBalancer:\n        servers:\n          - url: \"" ++ mgr.config.serviceUrl
    ++ "\"\n"

/-- The file of a client's route: one router, and nothing else. -/
def clientRoute (clientId : String) : String :=
  let safe := sanitizeId clientId
  let host := clientId ++ "." ++ mgr.domain
  "http:\n  routers:\n    zo-tunnel-" ++ safe ++ ":\n      rule: \"Host(`" ++ host
    ++ "`)\"\n      entryPoints:\n        - \"" ++ mgr.config.entrypoint ++ "\"\n      service: "
    ++ sharedService ++ "\n      tls:\n        certResolver: " ++ mgr.config.certResolver ++ "\n"

/-- The first half of `add_client`: the file is there and has the content already. -/
def upToDate (files : RouteFiles) (clientId : String) : Bool :=
  match files (clientFile (sanitizeId clientId)) with
  | none => false
  | some existing => Framing.ofUtf8 existing == some (mgr.clientRoute clientId)

/-- The second half of `add_client`: the file is written. -/
def writeRoute (files : RouteFiles) (clientId : String) (w : FileWrite) : RouteFiles :=
  let path := clientFile (sanitizeId clientId)
  let content := Framing.utf8 (mgr.clientRoute clientId)
  match w with
  | .written => Function.update files path (some content)
  | .refused => files
  | .cut n => Function.update files path (some (content.take n))

end TraefikManager

end ZoTunnel
