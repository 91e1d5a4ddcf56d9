import TopicConsumer.Failure
import TopicConsumer.PropertyKind
import TopicConsumer.Settings

namespace TopicConsumer

private def maxInt : Int := 2147483647

private def minute : Int := 60000

private def hour : Int := 3600000

private def day : Int := 86400000

private def noSsl : String := "OpenSSL not available at build time"

private def noSsl102 : String := "OpenSSL >= 1.0.2 not available at build time"

private def noSslEngine : String := "OpenSSL >= 1.1.x not available at build time"

private def noSsl3 : String := "OpenSSL >= 3.0.0 not available at build time"

private def noKerberos : String := "cyrus-sasl/libsasl2 not available at build time"

private def noZstd : String := "libzstd not available at build time"

private def noHttp : String := "libcurl not available at build time"

private def noOpenId : String :=
  "OAuth/OIDC depends on libcurl and OpenSSL which were not available at build time"

private def advicePage (page : String) : String :=
  "/".intercalate ["https:", "", "github.com", "confluentinc", "librdkafka", "wiki", page]

private def anyText : PropertyKind := .text .free

private def count (least greatest : Int) : PropertyKind := .number least greatest []

private def compressions : List String := ["none", "gzip", "snappy", "lz4"]

private def coreProperties : Table String PropertyKind := [
  ("builtin.features", .words ["gzip", "snappy", "sasl", "regex", "lz4", "sasl_plain", "plugins"]
    [("ssl", noSsl), ("sasl_gssapi", noKerberos), ("sasl_scram", noSsl), ("zstd", noZstd),
      ("sasl_oauthbearer", noSsl), ("http", noHttp), ("oidc", noOpenId)]),
  ("client.id", anyText),
  ("client.software.name", anyText),
  ("client.software.version", anyText),
  ("metadata.broker.list", anyText),
  ("bootstrap.servers", .sameAs "metadata.broker.list"),
  ("message.max.bytes", count 1000 1000000000),
  ("message.copy.max.bytes", count 0 1000000000),
  ("receive.message.max.bytes", count 1000 maxInt),
  ("max.in.flight.requests.per.connection", count 1 1000000),
  ("max.in.flight", .sameAs "max.in.flight.requests.per.connection"),
  ("metadata.request.timeout.ms", count 10 900000),
  ("metadata.recovery.strategy", .choice ["none", "rebootstrap"] []),
  ("metadata.recovery.rebootstrap.trigger.ms", count 0 maxInt),
  ("topic.metadata.refresh.interval.ms", count (-1) hour),
  ("metadata.max.age.ms", count 1 day),
  ("topic.metadata.refresh.fast.interval.ms", count 1 minute),
  ("topic.metadata.refresh.fast.cnt", count 0 1000),
  ("topic.metadata.refresh.sparse", .flag),
  ("topic.metadata.propagation.max.ms", count 0 hour),
  ("topic.blacklist", .patterns),
  ("debug", .words ["generic", "broker", "topic", "metadata", "feature", "queue", "msg", "protocol",
    "cgrp", "security", "fetch", "interceptor", "plugin", "consumer", "admin", "eos", "mock",
    "assignor", "conf", "telemetry", "all"] []),
  ("socket.timeout.ms", count 10 300000),
  ("socket.blocking.max.ms", count 1 minute),
  ("socket.send.buffer.bytes", count 0 100000000),
  ("socket.receive.buffer.bytes", count 0 100000000),
  ("socket.keepalive.enable", .flag),
  ("socket.nagle.disable", .flag),
  ("socket.max.fails", count 0 1000000),
  ("broker.address.ttl", count 0 day),
  ("broker.address.family", .choice ["any", "v4", "v6"] []),
  ("socket.connection.setup.timeout.ms", count 1000 maxInt),
  ("connections.max.idle.ms", count 0 maxInt),
  ("enable.sparse.connections", .flag),
  ("reconnect.backoff.jitter.ms", count 0 hour),
  ("reconnect.backoff.ms", count 0 hour),
  ("reconnect.backoff.max.ms", count 0 hour),
  ("statistics.interval.ms", count 0 day),
  ("enabled_events", count 0 maxInt),
  ("error_cb", .callback),
  ("throttle_cb", .callback),
  ("stats_cb", .callback),
  ("log_cb", .callback),
  ("log_level", count 0 7),
  ("log.queue", .flag),
  ("log.thread.name", .flag),
  ("enable.random.seed", .flag),
  ("log.connection.close", .flag),
  ("background_event_cb", .callback),
  ("socket_cb", .callback),
  ("connect_cb", .callback),
  ("closesocket_cb", .callback),
  ("open_cb", .callback),
  ("resolve_cb", .callback),
  ("opaque", .callback),
  ("default_topic_conf", .callback),
  ("internal.termination.signal", count 0 128),
  ("api.version.request", .flag),
  ("api.version.request.timeout.ms", count 1 300000),
  ("api.version.fallback.ms", count 0 604800000),
  ("broker.version.fallback", .text .brokerVersion),
  ("allow.auto.create.topics", .flag),
  ("client.rack", anyText),
  ("client.dns.lookup",
    .choice ["use_all_dns_ips", "resolve_canonical_bootstrap_servers_only"] []),
  ("enable.metrics.push", .flag),
  ("retry.backoff.ms", count 1 300000),
  ("retry.backoff.max.ms", count 1 300000),
  ("plugin.library.paths", .plugins),
  ("interceptors", .internal),
  ("test.mock.num.brokers", count 0 10000),
  ("test.mock.broker.rtt", count 0 hour),
  -- the one function that may be set by text
  ("ut_handle_ProduceResponse", anyText)]

private def securityProperties : Table String PropertyKind := [
  ("security.protocol",
    .choice ["plaintext", "sasl_plaintext"] [("ssl", noSsl), ("sasl_ssl", noSsl)]),
  ("ssl.cipher.suites", .lacking noSsl),
  ("ssl.curves.list", .lacking noSsl102),
  ("ssl.sigalgs.list", .lacking noSsl102),
  ("ssl.key.location", .lacking noSsl),
  ("ssl.key.password", .lacking noSsl),
  ("ssl.key.pem", .lacking noSsl),
  ("ssl_key", .lacking noSsl),
  ("ssl.certificate.location", .lacking noSsl),
  ("ssl.certificate.pem", .lacking noSsl),
  ("ssl_certificate", .lacking noSsl),
  ("ssl.ca.location", .lacking noSsl),
  ("ssl.ca.pem", .lacking noSsl),
  ("ssl_ca", .lacking noSsl),
  ("ssl.ca.certificate.stores", .lacking "configuration only valid on Windows"),
  ("ssl.crl.location", .lacking noSsl),
  ("ssl.keystore.location", .lacking noSsl),
  ("ssl.keystore.password", .lacking noSsl),
  ("ssl.providers", .lacking noSsl3),
  ("ssl.engine.location", .lacking noSslEngine),
  ("ssl.engine.id", .lacking noSslEngine),
  ("ssl_engine_callback_data", .lacking noSslEngine),
  ("enable.ssl.certificate.verification", .lacking noSsl),
  ("ssl.endpoint.identification.algorithm", .lacking noSsl102),
  ("ssl.certificate.verify_cb", .lacking noSsl),
  ("ssl.truststore.location",
    .foreign ("Java TrustStores are not supported, use `ssl.ca.location` and a certificate file " ++
      "instead. See " ++ advicePage "Using-SSL-with-librdkafka" ++ " for more information.")),
  ("sasl.jaas.config",
    .foreign ("Java JAAS configuration is not supported, see " ++
      advicePage "Using-SASL-with-librdkafka" ++ " for more information.")),
  ("sasl.mechanisms", .text .single),
  ("sasl.mechanism", .sameAs "sasl.mechanisms"),
  ("sasl.kerberos.service.name", anyText),
  ("sasl.kerberos.principal", anyText),
  ("sasl.kerberos.kinit.cmd", anyText),
  ("sasl.kerberos.keytab", anyText),
  ("sasl.kerberos.min.time.before.relogin", count 0 day),
  ("sasl.username", anyText),
  ("sasl.password", anyText),
  ("sasl.oauthbearer.config", .lacking noSsl),
  ("enable.sasl.oauthbearer.unsecure.jwt", .lacking noSsl),
  ("oauthbearer_token_refresh_cb", .lacking noSsl),
  ("enable_sasl_queue", .flag),
  ("https.ca.location", .lacking noOpenId),
  ("https.ca.pem", .lacking noOpenId)]

private def identityProperties : Table String PropertyKind :=
  (["method", "client.id", "client.secret", "scope", "extensions", "token.endpoint.url", "grant.type",
    "assertion.algorithm", "assertion.private.key.file", "assertion.private.key.passphrase",
    "assertion.private.key.pem", "assertion.file", "assertion.claim.aud",
    "assertion.claim.exp.seconds", "assertion.claim.iss", "assertion.claim.jti.include",
    "assertion.claim.nbf.seconds", "assertion.claim.sub", "assertion.jwt.template.file",
    "metadata.authentication.type"].map fun name =>
      ("sasl.oauthbearer." ++ name, PropertyKind.lacking noOpenId)) ++
  (["client.id", "client.secret"].map fun name =>
    ("sasl.oauthbearer.client.credentials." ++ name, .sameAs ("sasl.oauthbearer." ++ name)))

private def consumerProperties : Table String PropertyKind := [
  ("group.id", anyText),
  ("group.instance.id", anyText),
  ("partition.assignment.strategy", anyText),
  ("session.timeout.ms", count 1 hour),
  ("heartbeat.interval.ms", count 1 hour),
  ("group.protocol.type", anyText),
  ("group.protocol", .choice ["classic", "consumer"] []),
  ("group.remote.assignor", anyText),
  ("coordinator.query.interval.ms", count 1 hour),
  ("max.poll.interval.ms", count 1 day),
  ("enable.auto.commit", .flag),
  ("auto.commit.interval.ms", count 0 day),
  ("enable.auto.offset.store", .flag),
  ("queued.min.messages", count 1 10000000),
  ("queued.max.messages.kbytes", count 1 2097151),
  ("fetch.wait.max.ms", count 0 300000),
  ("fetch.queue.backoff.ms", count 0 300000),
  ("fetch.message.max.bytes", count 1 1000000000),
  ("max.partition.fetch.bytes", .sameAs "fetch.message.max.bytes"),
  ("fetch.max.bytes", count 0 2147483135),
  ("fetch.min.bytes", count 1 100000000),
  ("fetch.error.backoff.ms", count 0 300000),
  ("offset.store.method", .choice ["none", "file", "broker"] []),
  ("isolation.level", .choice ["read_uncommitted", "read_committed"] []),
  ("consume_cb", .callback),
  ("rebalance_cb", .callback),
  ("offset_commit_cb", .callback),
  ("enable.partition.eof", .flag),
  ("check.crcs", .flag)]

private def producerProperties : Table String PropertyKind := [
  ("transactional.id", anyText),
  ("transaction.timeout.ms", count 1000 maxInt),
  ("enable.idempotence", .flag),
  ("enable.gapless.guarantee", .flag),
  ("queue.buffering.max.messages", count 0 maxInt),
  ("queue.buffering.max.kbytes", count 1 maxInt),
  ("queue.buffering.max.ms", .decimal 900000),
  ("linger.ms", .sameAs "queue.buffering.max.ms"),
  ("message.send.max.retries", count 0 maxInt),
  ("retries", .sameAs "message.send.max.retries"),
  ("queue.buffering.backpressure.threshold", count 1 1000000),
  ("compression.codec", .choice compressions [("zstd", noZstd)]),
  ("compression.type", .sameAs "compression.codec"),
  ("batch.num.messages", count 1 1000000),
  ("batch.size", count 1 maxInt),
  ("delivery.report.only.error", .flag),
  ("dr_cb", .callback),
  ("dr_msg_cb", .callback),
  ("sticky.partitioning.linger.ms", count 0 900000)]

def clientProperties : Table String PropertyKind :=
  coreProperties ++ securityProperties ++ identityProperties ++ consumerProperties ++
    producerProperties

def topicProperties : Table String PropertyKind := [
  ("request.required.acks", .number (-1) 1000 [("all", -1)]),
  ("acks", .sameAs "request.required.acks"),
  ("request.timeout.ms", count 1 900000),
  ("message.timeout.ms", count 0 maxInt),
  ("delivery.timeout.ms", .sameAs "message.timeout.ms"),
  ("queuing.strategy", .choice ["fifo", "lifo"] []),
  ("produce.offset.report", .flag),
  ("partitioner", .text .partitioner),
  ("partitioner_cb", .callback),
  ("msg_order_cmp", .callback),
  ("opaque", .callback),
  ("compression.codec", .choice (compressions ++ ["inherit"]) [("zstd", noZstd)]),
  ("compression.type", .sameAs "compression.codec"),
  ("compression.level", count (-1) 12),
  ("auto.commit.enable", .flag),
  ("enable.auto.commit", .sameAs "auto.commit.enable"),
  ("auto.commit.interval.ms", count 10 day),
  ("auto.offset.reset",
    .choice ["smallest", "earliest", "beginning", "largest", "latest", "end", "error"] []),
  ("offset.store.path", anyText),
  ("offset.store.sync.interval.ms", count (-1) day),
  ("offset.store.method", .choice ["file", "broker"] []),
  ("consume.callback.max.messages", count 0 1000000)]

/-- The own name of a property of a table, and what values it takes. -/
def findProperty? (properties : Table String PropertyKind) (key : String) :
    Option (String × PropertyKind) :=
  match properties.get? key with
  | some (.sameAs name) => (properties.get? name).map (name, ·)
  | found => found.map (key, ·)

/-- The name of a topic's property without what says that it is one. -/
def topicKey (key : String) : String :=
  if "topic.".isPrefixOf key then String.ofList (key.toList.drop 6) else key

def settingComplaint? (key value : String) : Option String :=
  match (findProperty? clientProperties key).or (findProperty? topicProperties (topicKey key)) with
  | some (name, kind) => kind.complaint? name value
  | none => some ("No such configuration property: \"" ++ topicKey key ++ "\"")

def complaintLimit : Nat := 511

/-- The most of a text that has a number of bytes. What is left of a character in the middle of which
the text ends is shown as one that cannot be read. -/
def cutText (limit : Nat) : List Char → List Char
  | [] => []
  | c :: rest =>
    if c.utf8Size ≤ limit then c :: cutText (limit - c.utf8Size) rest
    else if limit = 0 then []
    else ['\ufffd']

def cutComplaint (reason : String) : String := String.ofList (cutText complaintLimit reason.toList)

/-- Whether a property is known and takes a value. No byte of either may be zero. -/
def checkProperty (key value : String) : Except Failure Unit :=
  if key.toList.contains '\x00' ∨ value.toList.contains '\x00' then .error (.kafka .zeroByte)
  else
    match settingComplaint? key value with
    | none => .ok ()
    | some reason => .error (.kafka (.setting (cutComplaint reason) key value))

end TopicConsumer
