import HaoShortLink.RedisCaches
import HaoShortLink.Routers
import HaoShortLink.ServerConfigs

/-! The keys of the query cache and the key of the rate limiter. The settings give the prefixes,
and the rest of a cache key comes from the request. -/
namespace KeyPrefixes

open Cpp ServerConfigs Configs RedisCaches
open Routers (IsSegment)

/-- The settings of the file before they are checked. -/
def configured : ConfigPath → ServerConfig
  | .empty => {}
  | .file _ content =>
    match loadFromFile (fun _ => none) content with
    | (false, _) => {}
    | (true, values) => readServerConfig values

/-- keyPrefix + "global" -/
def limiterKey (rateLimitKeyPrefix : Bytes) : Bytes := rateLimitKeyPrefix ++ ascii "global"

/-- The limiter key goes on after the cache prefix as a path parameter could. -/
def Overlaps (config : ServerConfig) : Prop :=
  config.redisKeyPrefix <+: limiterKey config.rateLimitKeyPrefix ∧
    IsSegment ((limiterKey config.rateLimitKeyPrefix).drop config.redisKeyPrefix.length)

instance (config : ServerConfig) : Decidable (Overlaps config) :=
  inferInstanceAs (Decidable (_ ∧ _))

theorem loaded_prefixes (path : ConfigPath) :
    keyPrefixes (loadServerConfig path).config = keyPrefixes (configured path) := by
  cases path with
  | empty => exact keyPrefixes_checks ⟨{}, []⟩
  | file path content =>
    rcases hload : loadFromFile (fun _ => none) content with ⟨_ | _, values⟩
    · simp only [loadServerConfig, configured, hload]
    · simp only [loadServerConfig, configured, hload]
      exact keyPrefixes_checks ⟨readServerConfig values, []⟩

theorem overlaps_iff (config : ServerConfig) : Overlaps config ↔
    ∃ c, IsSegment c ∧ buildCacheKey config.redisKeyPrefix c =
      limiterKey config.rateLimitKeyPrefix := by
  constructor
  · rintro ⟨⟨c, hc⟩, hsegment⟩
    refine ⟨c, ?_, hc⟩
    rwa [← hc, List.drop_left] at hsegment
  · rintro ⟨c, hsegment, hc⟩
    refine ⟨⟨c, hc⟩, ?_⟩
    rw [← hc, buildCacheKey, List.drop_left]
    exact hsegment

/-- Whatever features are on, no code gives the cache the limiter's key exactly when the
limiter's key does not go on from the cache prefix. -/
theorem cache_spares_limiter_iff (path : ConfigPath) :
    (∀ c, IsSegment c → buildCacheKey (loadServerConfig path).config.redisKeyPrefix c ≠
      limiterKey (loadServerConfig path).config.rateLimitKeyPrefix) ↔
    ¬ Overlaps (configured path) := by
  obtain ⟨hcache, hlimiter⟩ := Prod.mk.inj (loaded_prefixes path)
  rw [overlaps_iff, hcache, hlimiter]
  simp

/-- The cache prefix is the first half of the limiter's. -/
def overlappingFile : ConfigPath :=
  .file (ascii "server.conf") (some (ascii "redis.enabled=1\nrate_limit.enabled=1\n" ++
    ascii "redis.key_prefix=rate-limit:\n"))

/-- A redirect for the code create:global finds the counter, takes it for a damaged record and
deletes it. -/
theorem redirect_deletes_counter :
    let config := (loadServerConfig overlappingFile).config
    let cache := RedisShortLinkCache.new ⟨config.redisTtlSeconds, config.redisKeyPrefix⟩
    let counter : RedisStores.Store := fun key =>
      if key = limiterKey config.rateLimitKeyPrefix then some ⟨ascii "100", some 60000⟩ else none
    config.redisEnabled ∧ config.rateLimitEnabled ∧ IsSegment (ascii "create:global") ∧
    buildCacheKey config.redisKeyPrefix (ascii "create:global") =
      limiterKey config.rateLimitKeyPrefix ∧
    (cache.get (ascii "create:global") .working .working 0 counter).2
      (limiterKey config.rateLimitKeyPrefix) = none := by decide +kernel

end KeyPrefixes
